/-
# Documents

A document is the text of a buffer.  Its lines end at line feeds; a carriage return right before one
belongs to the break and not to the line.  Offsets and columns count characters from zero, and so do
lines.

Two kinds of functions look up a line.  `startOf`, `endOf`, `contentOf` and `indentOf` take the
number of a line of the document.  `lineStart`, `lineEnd` and what follows them take any integer: a
negative number counts lines back from the end, and a line that is not there is refused.  The end of
a line is the one exception, for it looks at the line after: past the last line it is the end of the
text, and of line -1 it is the place before the text.

The line starts are all that is known of the lines.  They are the offsets behind the line feeds, so
that they ascend, and the line of an offset is found by counting the starts up to it.  Where a line
ends is found from the start of the next one and the two characters before it; the carriage return
counts only if the line has a character to hold it, which keeps the break of an empty line from
reaching into the line above.

`offsetAt` is the one function that takes a line and a column together.  It refuses what names no
place of the document, with an error that says which of the two numbers is at fault.

Main statements: the line of an offset is the number of line feeds before it
(`lineNumber_eq_count`), and there is one line more than there are line feeds
(`lineCount_eq_count`).
-/
import SmartEnter.Diagnostic
import SmartEnter.Text.Repeat
import SmartEnter.Text.Slice

namespace SmartEnter

open Text (isBlank)

/-- A text with the lines it has, and whether it may be changed.  The lines are not part of it but
functions of the text, so a document cannot have the wrong ones. -/
structure Document where
  text : List Char
  writable : Bool := true
  deriving Repr, DecidableEq

/-- A line number that counts no line of a document, from either end.  It is the number that was
asked for, before anything was made of it. -/
structure NoSuchLine where
  line : Int
  deriving Repr, DecidableEq

/-- The message about a line number; one that is no index is told apart. -/
def NoSuchLine.message (e : NoSuchLine) : String :=
  if Text.IsIndex e.line then "list index out of range" else Text.noIndexMessage

/-- Why a line and a column name no place of a document; both count from zero.  The line is looked
at first, so a column is at fault only in a line that is there. -/
inductive PositionError where
  | lineOutside (line column : Int) (lineCount : Nat)
  | columnOutside (line column : Int) (length : Nat)
  deriving Repr, DecidableEq

namespace PositionError

/-- The message of the error, in which lines and columns count from one. -/
def message : PositionError → String
  | lineOutside line _ lineCount =>
    "line " ++ toString (line + 1) ++ " is outside the buffer (" ++ toString lineCount ++ " lines)"
  | columnOutside line column length =>
    "column " ++ toString (column + 1) ++ " is outside line " ++ toString (line + 1)
      ++ " (" ++ toString length ++ " characters)"

def line : PositionError → Int
  | lineOutside line _ _ => line
  | columnOutside line _ _ => line

def column : PositionError → Int
  | lineOutside _ column _ => column
  | columnOutside _ column _ => column

/-- The error shown in the text it is about.  Its numbers count from one there, so one that is too
far out may have a digit too many to be written. -/
def diagnostic (e : PositionError) (source : List Char) : Diagnostic :=
  ⟨e.message, e.line + 1, e.column + 1, source⟩

end PositionError

/-! ## 1. Line starts -/

/-- The offsets behind the line feeds of a text that starts at offset `n`.  The start is a parameter
so that the recursion on the text has a hypothesis for what is left of it. -/
def breaksFrom (n : Nat) : List Char → List Nat
  | [] => []
  | c :: rest => if c = '\n' then (n + 1) :: breaksFrom (n + 1) rest else breaksFrom (n + 1) rest

namespace Document

/-- The offsets at which lines start, in ascending order.  The first one is zero, also for an empty
text, and the others lie behind the line feeds. -/
def lineStarts (d : Document) : List Nat := 0 :: breaksFrom 0 d.text

/-- The number of lines; an empty text has one, and a text that ends with a line feed has an empty
last line. -/
def lineCount (d : Document) : Nat := d.lineStarts.length

/-- The line that holds an offset; an offset outside the text counts as its nearer end.  A line
holds its own break as well. -/
def lineNumber (d : Document) (offset : Int) : Nat :=
  let place := (max 0 (min offset d.text.length)).toNat
  d.lineStarts.countP (· ≤ place) - 1

/-- Where line `n` starts; the end of the text if there is no such line, so that lines that are not
there are empty. -/
def startOf (d : Document) (n : Nat) : Nat := d.lineStarts.getD n d.text.length

/-- Where line `n` ends, its break excluded.  A carriage return before the line feed is in the break
if it is on the line, and not if the line starts right behind it. -/
def endOf (d : Document) (n : Nat) : Nat :=
  match d.lineStarts[n + 1]? with
  | none => d.text.length
  | some following =>
    if d.startOf n < following - 1 ∧ d.text[following - 2]? = some '\r' then following - 2
    else following - 1

/-- The text of line `n`, its break excluded.  With the breaks in between, the contents of all lines
make up the text. -/
def contentOf (d : Document) (n : Nat) : List Char :=
  (d.text.take (d.endOf n)).drop (d.startOf n)

/-- The blanks at the start of line `n`.  A line of nothing but blanks is all indent. -/
def indentOf (d : Document) (n : Nat) : List Char := (d.contentOf n).takeWhile isBlank

/-- Among the offsets behind line feeds, those at most `k` further on count the line feeds before.
This is the one induction on the text that all statements about line numbers come from. -/
theorem countP_breaksFrom (n k : Nat) (s : List Char) :
    (breaksFrom n s).countP (· ≤ n + k) = (s.take k).count '\n' := by
  induction s generalizing n k with
  | nil => simp [breaksFrom]
  | cons c r ih =>
    cases k with
    | zero =>
      have h : ∀ (s : List Char) (m : Nat), n < m → (breaksFrom m s).countP (· ≤ n) = 0 := by
        intro s
        induction s with
        | nil => intro m _; rfl
        | cons c r ih =>
          intro m hm
          have := ih (m + 1) (by omega)
          by_cases hc : c = '\n'
          · simp only [breaksFrom, hc, if_true, List.countP_cons, this]
            simp
            omega
          · simp [breaksFrom, hc, this]
      by_cases hc : c = '\n'
      · simp [breaksFrom, hc, h r (n + 1) (by omega)]
      · simp [breaksFrom, hc, h r (n + 1) (by omega)]
    | succ k =>
      have := ih (n + 1) k
      rw [show n + 1 + k = n + (k + 1) by omega] at this
      by_cases hc : c = '\n'
      · simp [breaksFrom, hc, this]
      · simp [breaksFrom, hc, this]

/-- **The line of an offset is the number of line feeds before it.**  So lines can be reasoned about
without the list of their starts. -/
theorem lineNumber_eq_count {d : Document} {offset : Nat} (h : offset ≤ d.text.length) :
    d.lineNumber offset = (d.text.take offset).count '\n' := by
  have hp : (max 0 (min (offset : Int) d.text.length)).toNat = offset := by omega
  have hc := countP_breaksFrom 0 offset d.text
  rw [Nat.zero_add] at hc
  unfold lineNumber lineStarts
  simp only [hp, List.countP_cons, hc, Nat.zero_le, decide_true, if_true, Nat.add_sub_cancel]

/-- **There is one line more than there are line feeds**, the last one being what stands behind the
last of them. -/
theorem lineCount_eq_count (d : Document) : d.lineCount = d.text.count '\n' + 1 := by
  have h : ∀ (s : List Char) (n : Nat), (breaksFrom n s).length = s.count '\n' := by
    intro s
    induction s with
    | nil => intro n; rfl
    | cons c r ih =>
      intro n
      by_cases hc : c = '\n' <;> simp [breaksFrom, hc, ih]
  simp [lineCount, lineStarts, h]

/-! ## 2. Lines by any number

These functions take the number of a line as a list takes an index, so a number below zero counts
from the end.  Their answers for numbers that count no line are not all of one kind. -/

/-- Where a line starts.  A number below zero counts from the end, and one that is not there from
either end is refused under the number that was given. -/
def lineStart (d : Document) (line : Int) : Except NoSuchLine Nat :=
  let index := if line < 0 then line + d.lineCount else line
  if index < 0 then .error ⟨line⟩
  else match d.lineStarts[index.toNat]? with
    | some start => .ok start
    | none => .error ⟨line⟩

/-- Where a line ends, its break excluded.  It is the start of the line after that is asked for, so
a number beyond the last line is answered like the last one, and only numbers far below zero are
refused. -/
def lineEnd (d : Document) (line : Int) : Except NoSuchLine Int := do
  if line + 1 < d.lineCount then
    let following ← d.lineStart (line + 1)
    let start ← d.lineStart line
    if (start : Int) < following - 1 ∧ d.text[following - 2]? = some '\r' then
      return following - 2
    else
      return following - 1
  else
    return d.text.length

/-- The first character of a line that is neither space nor tab; the end of a blank line. -/
def firstNonBlank (d : Document) (line : Int) : Except NoSuchLine Nat := do
  let start ← d.lineStart line
  let stop ← d.lineEnd line
  return start + (((d.text.take stop.toNat).drop start).takeWhile isBlank).length

/-- The blanks at the start of a line, looked up by any number: they go up to its first character
that is none. -/
def lineIndent (d : Document) (line : Int) : Except NoSuchLine (List Char) := do
  return Text.slice d.text (← d.lineStart line) (← d.firstNonBlank line)

/-- The text of a line, its break excluded, looked up by any number.  Start and end are refused by
different rules, and the first refusal counts. -/
def lineText (d : Document) (line : Int) : Except NoSuchLine (List Char) := do
  return Text.slice d.text (← d.lineStart line) (← d.lineEnd line)

/-! ## 3. Places and changes -/

/-- The offset of a line and a column, which count from zero.  The place behind the last character
of a line is one of its columns, and the break is not. -/
def offsetAt (d : Document) (line column : Int) : Except PositionError Nat :=
  if line < 0 ∨ d.lineCount ≤ line then .error (.lineOutside line column d.lineCount)
  else
    let start := d.startOf line.toNat
    let length := d.endOf line.toNat - start
    if column < 0 ∨ length < column then .error (.columnOutside line column length)
    else .ok (start + column.toNat)

/-- The document with a text put in at an offset.  Offsets are taken as slices take them, so one
below zero counts from the end and one behind the text is the end. -/
def insert (d : Document) (offset : Int) (new : List Char) : Document :=
  { d with text := Text.insertAt d.text offset new }

def describe (d : Document) : String :=
  "Document(lines=" ++ toString d.lineCount ++ ", writable=" ++
    (if d.writable then "True" else "False") ++ ")"

end Document

end SmartEnter
