/-
# Positions and log levels on the command line

A position is a line and a column from one, with a colon between them.  Both are digits of any
script, and digits that make up no number, such as superscripts, are a problem of their own.

A log level is a number or a known name, in small or capital letters.  It is taken from the
argument, else from the environment; `warningLevel` stands in for both.

The two have the same weak spot.  A text is first asked whether it is made of digits, and only then
read as a number, and there are digits with which no number can be written.  A text that passes the
question and is no number is not refused like others: the reader of numbers fails, and its failure
is what remains (`number`).  Too many digits end in the same way.

The line of a position is read before its column is, and has to be above zero by then.
-/
import SmartEnter.CommandLine.Problem
import SmartEnter.Unicode.LetterCase

namespace SmartEnter.CommandLine

/-- Is the text made of digits, and not empty?  Digits of any kind will do, and those of several
scripts may be mixed. -/
def isDigits (s : List Char) : Bool := s ≠ [] && s.all Unicode.isDigit

/-- The number that digits make up, if they do; they need not, since there are digits that stand for
no decimal value and numbers that are too long to be read. -/
def number (s : List Char) : Except Problem Int := (Decimal.integer s).mapError .integer

/-! ## 1. Positions -/

/-- A line and a column, both from one.  A place that was read has both above zero. -/
structure Place where
  line : Int
  column : Int
  deriving Repr, DecidableEq

def Place.text (p : Place) : String := toString p.line ++ ":" ++ toString p.column

def Place.IsWritable (p : Place) : Prop := Decimal.IsWritable p.line ∧ Decimal.IsWritable p.column

instance (p : Place) : Decidable p.IsWritable := by unfold Place.IsWritable; infer_instance

/-- **Reads a position.**  What stands behind the first colon is the column, so a second colon is no
digit and makes it none. -/
def Place.ofString (arg : String) : Except Problem Place := do
  let s := arg.toList
  let before := s.takeWhile (· ≠ ':')
  let behind := (s.drop before.length).drop 1
  if before.length = s.length ∨ !isDigits before ∨ !isDigits behind then
    throw (.argument (.noPosition arg))
  let line ← number before
  if line < 1 then throw (.argument (.zeroPosition arg))
  let column ← number behind
  if column < 1 then throw (.argument (.zeroPosition arg))
  return ⟨line, column⟩

/-! ## 2. Log levels -/

def levelNames : List (String × Int) :=
  [("CRITICAL", 50), ("FATAL", 50), ("ERROR", 40), ("WARN", 30), ("WARNING", 30), ("INFO", 20),
    ("DEBUG", 10), ("NOTSET", 0)]

/-- The level when none is given, at which warnings are shown and the explanation of a decision is
not. -/
def warningLevel : Int := 30

/-- The first of two texts that is given and not empty.  An empty argument counts as none. -/
def firstGiven (arg environment : Option String) : Option String :=
  (arg.filter (· ≠ "")).or (environment.filter (· ≠ ""))

/-- **The log level that an argument, or else the environment, asks for.**  White space around it
does not count. -/
def logLevel (arg environment : Option String) : Except Problem Int :=
  match firstGiven arg environment with
  | none => .ok warningLevel
  | some given =>
    let name := Unicode.upper (Unicode.trim Unicode.isSpace given.toList)
    if isDigits name then number name
    else
      match levelNames.lookup (String.ofList name) with
      | some level => .ok level
      | none => .error (.argument (.unknownLevel (String.ofList name)))

end SmartEnter.CommandLine
