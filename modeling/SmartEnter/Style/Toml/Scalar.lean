/-
# The scalars of a style file

Style files are written in TOML.  This module reads its smallest parts: keys, texts in their four
forms, whole numbers in four bases, fractions, dates and times.  Every reader takes a text and
returns a value with the rest of the text; one that finds nothing of its kind where it must be says
that the file is malformed.

There are two kinds of readers.  Those that have seen the start of what they read have to find the
rest of it, and fail if they do not.  Those with a question mark look whether something of their
kind stands at the start, and leave the text to the next one if not.  A number and a date begin
alike, so the order in which they are tried decides what a text is (`scalar`).

Texts are read with fuel, because a backslash may take any number of characters with it, so the
recursion does not follow the text.  The fuel is the length of the text, and each step uses up one
character at least.

Line breaks are line feeds here: those of two characters have been joined before the file is read.
-/
import SmartEnter.Decimal.Numeral
import SmartEnter.Style.Value
import SmartEnter.Text.Lines

namespace SmartEnter.Style.Toml

open Text (isBlank)

/-- Why a file cannot be read.  What exactly is malformed is not kept.  A whole number with too many
digits is told apart, since it is a fault of the number and not of the file's form. -/
inductive Failure where
  | malformed
  /-- Lists and tables are nested deeper than the stack holds out. -/
  | tooDeep
  | integer (failure : Decimal.IntegerFailure)
  deriving Repr, DecidableEq

/-- The text without the spaces and tabs at its start. -/
def skipBlanks (s : List Char) : List Char := s.dropWhile isBlank

/-- May the character not stand in a comment or a text?  A tab may, and a line feed only where a
text may have several lines. -/
def isControl (c : Char) : Bool := (c.toNat < 0x20 && c ≠ '\t') || c.toNat = 0x7F

/-! ## 1. Texts

Texts come in four forms, with escapes or without, on one line or on several. -/

/-- The character that a backslash and a letter stand for. -/
def escape? : Char → Option Char
  | 'b' => some '\x08'
  | 't' => some '\t'
  | 'n' => some '\n'
  | 'f' => some '\x0C'
  | 'r' => some '\r'
  | '"' => some '"'
  | '\\' => some '\\'
  | _ => none

def hexDigit? (c : Char) : Option Nat :=
  if '0' ≤ c ∧ c ≤ '9' then some (c.toNat - 48)
  else if 'a' ≤ c ∧ c ≤ 'f' then some (c.toNat - 87)
  else if 'A' ≤ c ∧ c ≤ 'F' then some (c.toNat - 55)
  else none

/-- The character whose code point is written in `count` hexadecimal digits.  A surrogate is no
character, and is refused. -/
def codePoint (count : Nat) (s : List Char) : Except Failure (Char × List Char) :=
  match (s.take count).mapM hexDigit? with
  | none => .error .malformed
  | some digits =>
    let n := digits.foldl (fun n d => 16 * n + d) 0
    if digits.length = count ∧ n.isValidChar then .ok (Char.ofNat n, s.drop count)
    else .error .malformed

/-- What stands behind a backslash; a line that ends in one is joined with the next one, together
with the blanks and the empty lines that follow. -/
def escaped (multiline : Bool) : List Char → Except Failure (List Char × List Char)
  | 'u' :: rest => do let (c, rest) ← codePoint 4 rest; return ([c], rest)
  | 'U' :: rest => do let (c, rest) ← codePoint 8 rest; return ([c], rest)
  | c :: rest =>
    if multiline ∧ (isBlank c ∨ c = '\n') then
      match skipBlanks (c :: rest) with
      | [] => .ok ([], [])
      | '\n' :: rest => .ok ([], rest.dropWhile fun c => isBlank c || c = '\n')
      | _ => .error .malformed
    else
      match escape? c with
      | some d => .ok ([d], rest)
      | none => .error .malformed
  | [] => .error .malformed

/-- A text in double quotes, behind its opening ones; `fuel` bounds its length.  In the form of
several lines, one or two quotes are part of the text and three end it. -/
def basicTail (multiline : Bool) :
    (fuel : Nat) → List Char → Except Failure (List Char × List Char)
  | 0, _ => .error .malformed
  | _, [] => .error .malformed
  | fuel + 1, '"' :: rest =>
    if !multiline then .ok ([], rest)
    else
      match rest with
      | '"' :: '"' :: rest => .ok ([], rest)
      | rest => do let (s, rest) ← basicTail multiline fuel rest; return ('"' :: s, rest)
  | fuel + 1, '\\' :: rest => do
    let (e, rest) ← escaped multiline rest
    let (s, rest) ← basicTail multiline fuel rest
    return (e ++ s, rest)
  | fuel + 1, c :: rest =>
    if isControl c && !(multiline && c = '\n') then .error .malformed
    else do let (s, rest) ← basicTail multiline fuel rest; return (c :: s, rest)

/-- A text in single quotes on one line, behind its opening one. -/
def literalTail : List Char → Except Failure (List Char × List Char)
  | [] => .error .malformed
  | '\'' :: rest => .ok ([], rest)
  | c :: rest =>
    if isControl c then .error .malformed
    else do let (s, rest) ← literalTail rest; return (c :: s, rest)

/-- A text in three single quotes, behind its opening ones. -/
def multilineLiteralTail : List Char → Except Failure (List Char × List Char)
  | [] => .error .malformed
  | '\'' :: '\'' :: '\'' :: rest => .ok ([], rest)
  | c :: rest =>
    if isControl c && c ≠ '\n' then .error .malformed
    else do let (s, rest) ← multilineLiteralTail rest; return (c :: s, rest)

/-- Up to two further quotes right behind the closing three belong to the text. -/
def extraQuotes (quote : Char) (r : List Char × List Char) : List Char × List Char :=
  let extra := (r.2.take 2).takeWhile (· = quote)
  (r.1 ++ extra, r.2.drop extra.length)

/-- The text behind three opening quotes, without a line break right there. -/
def dropFirstBreak : List Char → List Char
  | '\n' :: rest => rest
  | s => s

/-- A text in quotes of any form; none if no quote stands at the start.  Three quotes are asked
about first, since two of them would else be an empty text. -/
def quotedText? : List Char → Option (Except Failure (List Char × List Char))
  | '"' :: '"' :: '"' :: rest =>
    let rest := dropFirstBreak rest
    some (extraQuotes '"' <$> basicTail true rest.length.succ rest)
  | '"' :: rest => some (basicTail false rest.length.succ rest)
  | '\'' :: '\'' :: '\'' :: rest =>
    some (extraQuotes '\'' <$> multilineLiteralTail (dropFirstBreak rest))
  | '\'' :: rest => some (literalTail rest)
  | _ => none

/-! ## 2. Keys -/

def isBareKeyChar (c : Char) : Bool := c.isAlphanum || c = '-' || c = '_'

def keyPart : List Char → Except Failure (String × List Char)
  | '"' :: rest => do
    let (s, rest) ← basicTail false rest.length.succ rest
    return (String.ofList s, rest)
  | '\'' :: rest => do
    let (s, rest) ← literalTail rest
    return (String.ofList s, rest)
  | s =>
    match s.takeWhile isBareKeyChar with
    | [] => .error .malformed
    | name => .ok (String.ofList name, s.dropWhile isBareKeyChar)

/-- A key of any number of parts with points between them, and the blanks behind it.  The parts may
have blanks around them, and each may be quoted or not. -/
def keyWith : (fuel : Nat) → List Char → Except Failure (List String × List Char)
  | 0, _ => .error .malformed
  | fuel + 1, s => do
    let (part, rest) ← keyPart s
    match skipBlanks rest with
    | '.' :: rest => do
      let (parts, rest) ← keyWith fuel (skipBlanks rest)
      return (part :: parts, rest)
    | rest => return ([part], rest)

def key (s : List Char) : Except Failure (List String × List Char) := keyWith s.length.succ s

/-! ## 3. Numbers

Numbers are read by their form; that they have a value of the right size is looked at afterwards. -/

/-- The longest run of digits, single underscores between them included, behind a first digit.  An
underscore with no digit behind it is left to be found out by whoever comes next. -/
def moreDigits (isDigit : Char → Bool) : List Char → List Char
  | [] => []
  | '_' :: c :: rest => if isDigit c then '_' :: c :: moreDigits isDigit rest else []
  | c :: rest => if isDigit c then c :: moreDigits isDigit rest else []

/-- The longest run of digits, single underscores between them included. -/
def digitRun (isDigit : Char → Bool) : List Char → List Char
  | [] => []
  | c :: rest => if isDigit c then c :: moreDigits isDigit rest else []

def isDigitOf (base : Nat) (c : Char) : Bool := (hexDigit? c).any (· < base)

/-- The base that a letter behind a zero stands for. -/
def base? : Char → Option Nat
  | 'x' => some 16
  | 'o' => some 8
  | 'b' => some 2
  | _ => none

/-- A whole number in another base than ten, if one stands at the start.  It has no sign, and no
limit on its digits either. -/
def basedNumber? : List Char → Option (Value × List Char)
  | '0' :: mark :: rest =>
    match base? mark with
    | none => none
    | some base =>
      match digitRun (isDigitOf base) rest with
      | [] => none
      | run =>
        let n := (run.filterMap hexDigit?).foldl (fun n d => base * n + d) 0
        some (.int n, rest.drop run.length)
  | _ => none

/-- The digits before the point of a number: a single zero, or a run that starts with another digit.
What follows a zero is left over, and makes the line malformed. -/
def wholePart : List Char → List Char
  | '0' :: _ => ['0']
  | s => digitRun Char.isDigit s

/-- A point with digits behind it, or nothing. -/
def fractionPart : List Char → List Char
  | '.' :: rest =>
    match digitRun Char.isDigit rest with
    | [] => []
    | run => '.' :: run
  | _ => []

def exponentPart : List Char → List Char
  | e :: rest =>
    if e = 'e' ∨ e = 'E' then
      let sign := (rest.take 1).takeWhile fun c => c = '+' || c = '-'
      match digitRun Char.isDigit (rest.drop sign.length) with
      | [] => []
      | run => e :: (sign ++ run)
    else []
  | [] => []

/-- A number in base ten, if one stands at the start.  It is a whole number if it has neither a
point nor an exponent, and only then can it have too many digits. -/
def decimalNumber? (s : List Char) : Option (Except Failure (Value × List Char)) :=
  let sign := (s.take 1).takeWhile fun c => c = '+' || c = '-'
  let unsigned := s.drop sign.length
  match wholePart unsigned with
  | [] => none
  | whole =>
    let behind := unsigned.drop whole.length
    let fraction := fractionPart behind
    let power := exponentPart (behind.drop fraction.length)
    let written := sign ++ whole ++ fraction ++ power
    let rest := s.drop written.length
    if fraction = [] ∧ power = [] then
      some (match Decimal.integer written with
        | .ok n => .ok (.int n, rest)
        | .error failure => .error (.integer failure))
    else some (.ok (.float (Decimal.fraction written), rest))

/-- The numbers that have no digits. -/
def namedNumber? (s : List Char) : Option (Value × List Char) :=
  let sign := (s.take 1).takeWhile fun c => c = '+' || c = '-'
  match s.drop sign.length with
  | 'i' :: 'n' :: 'f' :: rest => some (.float (.infinity (sign = ['-'])), rest)
  | 'n' :: 'a' :: 'n' :: rest => some (.float .nan, rest)
  | _ => none

/-! ## 4. Dates and times -/

/-- The value of so many decimal digits at the start of a text. -/
def fixedDigits? (count : Nat) (s : List Char) : Option (Nat × List Char) :=
  let digits := s.take count
  if digits.length = count ∧ digits.all Char.isDigit then
    some ((Decimal.asciiDigits digits).1, s.drop count)
  else none

/-- So many decimal digits with a value between two bounds. -/
def bounded? (count least greatest : Nat) (s : List Char) : Option (Nat × List Char) :=
  (fixedDigits? count s).filter fun (n, _) => least ≤ n && n ≤ greatest

/-- The text behind a character that must stand at the start. -/
def expect? (c : Char) : List Char → Option (List Char)
  | [] => none
  | d :: rest => if d = c then some rest else none

/-- The millionths of a second behind a point, if any; further digits are dropped and not
rounded. -/
def microseconds : List Char → Nat × List Char
  | '.' :: rest =>
    match rest.takeWhile Char.isDigit with
    | [] => (0, '.' :: rest)
    | run =>
      let digits := (run ++ List.replicate 6 '0').take 6
      ((Decimal.asciiDigits digits).1, rest.drop run.length)
  | s => (0, s)

def clockTime? (s : List Char) : Option (ClockTime × List Char) := do
  let (hour, s) ← bounded? 2 0 23 s
  let (minute, s) ← bounded? 2 0 59 (← expect? ':' s)
  let (second, s) ← bounded? 2 0 59 (← expect? ':' s)
  let (microsecond, s) := microseconds s
  return (⟨hour, minute, second, microsecond⟩, s)

/-- The distance from universal time in minutes, if it is given.  A sign without a time behind it is
left over. -/
def zoneOffset : List Char → Option Int × List Char
  | [] => (none, [])
  | c :: rest =>
    if c = 'Z' ∨ c = 'z' then (some 0, rest)
    else if c = '+' ∨ c = '-' then
      let given : Option (Int × List Char) := do
        let (hours, s) ← bounded? 2 0 23 rest
        let (minutes, s) ← bounded? 2 0 59 (← expect? ':' s)
        let size : Int := hours * 60 + minutes
        return (if c = '-' then -size else size, s)
      match given with
      | some (offset, s) => (some offset, s)
      | none => (none, c :: rest)
    else (none, c :: rest)

def daysIn (year month : Nat) : Nat :=
  if month = 2 then
    if year % 4 = 0 ∧ (year % 100 ≠ 0 ∨ year % 400 = 0) then 29 else 28
  else if month ∈ [4, 6, 9, 11] then 30
  else 31

/-- Is there such a day in the calendar? -/
def Date.isValid (d : Date) : Bool := 1 ≤ d.year && d.day ≤ daysIn d.year d.month

/-- The parts of a date, if they stand at the start. -/
def dateParts? (s : List Char) : Option (Date × List Char) := do
  let (year, s) ← fixedDigits? 4 s
  let (month, s) ← bounded? 2 1 12 (← expect? '-' s)
  let (day, s) ← bounded? 2 1 31 (← expect? '-' s)
  return (⟨year, month, day⟩, s)

def timeBehind? : List Char → Option (ClockTime × List Char)
  | c :: rest => if c = 'T' ∨ c = 't' ∨ c = ' ' then clockTime? rest else none
  | [] => none

/-- A date with or without a time, if one stands at the start.  Once a date is there it has to be
one of the calendar; the time behind it may be missing, and then the rest is left over. -/
def moment? (s : List Char) : Option (Except Failure (Value × List Char)) :=
  match dateParts? s with
  | none => none
  | some (d, rest) =>
    if Date.isValid d then
      match timeBehind? rest with
      | none => some (.ok (.date d, rest))
      | some (t, rest) =>
        let (offset, rest) := zoneOffset rest
        some (.ok (.moment d t offset, rest))
    else some (.error .malformed)

/-- A value that is neither a list nor a table.  The first reader that finds something of its kind
decides. -/
def scalar (s : List Char) : Except Failure (Value × List Char) :=
  match quotedText? s with
  | some r => (fun (t, rest) => (.string (String.ofList t), rest)) <$> r
  | none =>
  match s with
  | 't' :: 'r' :: 'u' :: 'e' :: rest => .ok (.bool true, rest)
  | 'f' :: 'a' :: 'l' :: 's' :: 'e' :: rest => .ok (.bool false, rest)
  | s =>
  match moment? s with
  | some r => r
  | none =>
  match clockTime? s with
  | some (t, rest) => .ok (.time t, rest)
  | none =>
  match basedNumber? s with
  | some r => .ok r
  | none =>
  match decimalNumber? s with
  | some r => r
  | none =>
  match namedNumber? s with
  | some r => .ok r
  | none => .error .malformed

end SmartEnter.Style.Toml
