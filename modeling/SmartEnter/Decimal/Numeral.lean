/-
# Numerals in a text

Two ways to write a number.

* A whole number in the decimal digits of any script, with an optional sign, single underscores
  between digits, and white space around it (`integer`).  Too many digits are a fault of their own,
  whatever stands behind them.
* A fraction in ASCII, with an optional sign, point and exponent (`fraction`).

A whole number of more than `digitLimit` digits is neither read from a text nor written as one: both
take a time that grows with the square of the length, and the limit keeps a short input from taking
a long time.  It counts digits, so a number with too many of them can still be the result of a sum,
or be read in another base, and it is only found out when the number is written.  `IsWritable` says
which numbers have a text, and every message that shows a number depends on it.
-/
import SmartEnter.Decimal.Binary64
import SmartEnter.Text.Quoted
import SmartEnter.Unicode.Number

namespace SmartEnter.Decimal

/-! ## 1. The limit on digits -/

/-- The greatest number of digits of a whole number that is read or written. -/
def digitLimit : Nat := 4300

/-- Does the number have few enough digits to be written?  The sign does not count. -/
def IsWritable (n : Int) : Prop := n.natAbs < Nat.pow 10 digitLimit

instance (n : Int) : Decidable (IsWritable n) := by unfold IsWritable; infer_instance

def limitMessage : String :=
  "Exceeds the limit (" ++ toString digitLimit ++ " digits) for integer string conversion"

def limitAdvice : String := "; use sys.set_int_max_str_digits() to increase the limit"

def unwritableMessage : String := limitMessage ++ limitAdvice

def unreadableMessage (digits : Nat) : String :=
  limitMessage ++ ": value has " ++ toString digits ++ " digits" ++ limitAdvice

/-- The first number with too many digits cannot be written, nor can any above it. -/
theorem not_isWritable_of_le {n : Nat} (h : Nat.pow 10 digitLimit ≤ n) : ¬IsWritable n :=
  fun hn => Nat.not_lt.2 h hn

theorem one_lt_pow_ten {n : Nat} (hn : n ≠ 0) : 1 < Nat.pow 10 n := Nat.one_lt_pow hn (by decide)

/-! ## 2. Whole numbers -/

/-- The value of a list of digits, the first one counting most. -/
def ofDigits (digits : List Nat) : Nat := digits.foldl (fun n d => 10 * n + d) 0

/-- Why a text is no whole number: it is not made up like one, or it is and has too many digits. -/
inductive IntegerFailure where
  | malformed (s : List Char)
  | tooLong (digits : Nat)
  deriving Repr, DecidableEq

/-- The digits of a text in which single underscores may stand between two digits.  There are none
if the text is empty, or if anything else is in it: an underscore at either end, or two together. -/
def groupedDigits? : List Char → Option (List Nat)
  | [] => none
  | [c] => (Unicode.decimalValue? c).map ([·])
  | c :: '_' :: rest =>
    match Unicode.decimalValue? c, groupedDigits? rest with
    | some d, some digits => some (d :: digits)
    | _, _ => none
  | c :: rest =>
    match Unicode.decimalValue? c, groupedDigits? rest with
    | some d, some digits => some (d :: digits)
    | _, _ => none

/-- The blanks that may stand around a number: white space, the information separators apart. -/
def isPadding (c : Char) : Bool := Unicode.isSpace c && !(0x1C ≤ c.toNat && c.toNat ≤ 0x1F)

/-- A text without its sign, and whether the sign was a minus.  No second sign is looked for, so
what is left may start with one and is then no number. -/
def splitSign : List Char → Bool × List Char
  | '-' :: rest => (true, rest)
  | '+' :: rest => (false, rest)
  | s => (false, s)

/-- The message of a failure; no more than two hundred characters of the text are shown. -/
def IntegerFailure.message : IntegerFailure → String
  | malformed s =>
    "invalid literal for int() with base 10: " ++ String.ofList ((Text.quoted s).take 200)
  | tooLong digits => unreadableMessage digits

/-- The digits and underscores at the start of a text.  The run is measured before anything behind
it is looked at, which is why too many digits are reported even in a text that is no number. -/
def digitRun (s : List Char) : List Char :=
  s.takeWhile fun c => c = '_' || (Unicode.decimalValue? c).isSome

/-- Reads a whole number.  Blanks around it are skipped, the sign may not be followed by one, and
leading zeros are digits like others, also for the limit. -/
def integer (s : List Char) : Except IntegerFailure Int :=
  let (negative, body) := splitSign (s.dropWhile isPadding)
  let run := digitRun body
  match groupedDigits? run with
  | none => .error (.malformed s)
  | some digits =>
    if digitLimit < digits.length then .error (.tooLong digits.length)
    else if !(body.drop run.length).all isPadding then .error (.malformed s)
    else .ok (if negative then -(ofDigits digits : Int) else ofDigits digits)

/-! ## 3. Fractions -/

/-- The value of the ASCII digits of a text, and how many there are; other characters, such as the
underscores and the point between digits, are passed over. -/
def asciiDigits (s : List Char) : Nat × Nat :=
  let digits := (s.filter Char.isDigit).map (fun c => c.toNat - 48)
  (ofDigits digits, digits.length)

/-- The number that is written as digits with an optional sign, point and exponent.  The text is
known to be made up like one: what is read here has been cut out by the grammar of style files. -/
def fraction (s : List Char) : Binary64 :=
  let (negative, body) := splitSign s
  let isMark := fun c : Char => c = 'e' || c = 'E'
  let mantissa := body.takeWhile (!isMark ·)
  let (negativePower, power) := splitSign ((body.dropWhile (!isMark ·)).drop 1)
  let places := (asciiDigits (mantissa.dropWhile (· ≠ '.'))).2
  let shift : Int := (asciiDigits power).1
  Binary64.ofDecimal negative (asciiDigits mantissa).1
    ((if negativePower then -shift else shift) - places)

end SmartEnter.Decimal
