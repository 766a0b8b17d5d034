/-
# Style values

What a style file holds: truth values, numbers, texts, dates and times, lists, and tables whose
keys keep their order.

`Value.render` shows a value in a message.  Two things can stand in its way (`Value.isWritable`).
There may be a number in the value that has too many digits, which is a fixed limit.  Or lists and
tables are nested so deep in it that the stack is used up on the way to the innermost one, and how
deep that is depends on the machine, on what is nested in what, and on where in the program the
message is made.  The library knows no number for it: `Stack` stands for the stack at hand, and what
is proved holds with every one.  The reader of style files depends on the same stack, since it
follows lists and tables inwards as well.
-/
import SmartEnter.Decimal.Numeral
import SmartEnter.Decimal.Shortest

namespace SmartEnter.Style

structure Date where
  year : Nat
  month : Nat
  day : Nat
  deriving Repr, DecidableEq

structure ClockTime where
  hour : Nat
  minute : Nat
  second : Nat
  microsecond : Nat
  deriving Repr, DecidableEq

/-- A value of a style file.  The null value is never read from one; it is there because settings
may also come from elsewhere. -/
inductive Value where
  | null
  | bool (b : Bool)
  | int (n : Int)
  | float (x : Decimal.Binary64)
  | string (s : String)
  | date (d : Date)
  | time (t : ClockTime)
  /-- A date with a time and, if it is known, its distance from universal time in minutes. -/
  | moment (d : Date) (t : ClockTime) (offset : Option Int)
  | list (items : List Value)
  | table (fields : List (String × Value))
  deriving Repr, Inhabited

/-- The fields of a table, in their order.  A reader of style files sees to it that the keys are
different. -/
abbrev Table := List (String × Value)

/-! ## 1. Values in messages

A message shows a value in a notation of its own, which is not that of a style file. -/

/-- The parts of a time that are shown: the seconds and their fraction only if they are not zero. -/
def ClockTime.shown (t : ClockTime) : List Nat :=
  [t.hour, t.minute] ++
    if t.microsecond ≠ 0 then [t.second, t.microsecond]
    else if t.second ≠ 0 then [t.second]
    else []

def Date.shown (d : Date) : List Nat := [d.year, d.month, d.day]

/-- A constructor with numbers as its arguments, as dates and times are shown. -/
def call (name : String) (arguments : List String) : String :=
  name ++ "(" ++ ", ".intercalate arguments ++ ")"

/-- The distance from universal time, as a zone.  It is shown in whole days and seconds of a day,
and those may be of different signs. -/
def zone (minutes : Int) : String :=
  if minutes = 0 then "datetime.timezone.utc"
  else
    let days := minutes.fdiv 1440
    let seconds := minutes.fmod 1440 * 60
    let parts := (if days = 0 then [] else ["days=" ++ toString days]) ++
      (if seconds = 0 then [] else ["seconds=" ++ toString seconds])
    call "datetime.timezone" [call "datetime.timedelta" parts]

mutual

/-- How a value is shown in a message.  The recursion is on the value, so a list is shown through
its items and a table through its fields, in their order. -/
def Value.render : Value → String
  | .null => "None"
  | .bool b => if b then "True" else "False"
  | .int n => toString n
  | .float x => x.text
  | .string s => Text.quote s
  | .date d => call "datetime.date" (d.shown.map toString)
  | .time t => call "datetime.time" (t.shown.map toString)
  | .moment d t offset =>
    call "datetime.datetime" ((d.shown ++ t.shown).map toString ++
      (offset.map fun minutes => "tzinfo=" ++ zone minutes).toList)
  | .list items => "[" ++ ", ".intercalate (renderItems items) ++ "]"
  | .table fields => "\x7b" ++ ", ".intercalate (renderFields fields) ++ "\x7d"

def renderItems : List Value → List String
  | [] => []
  | v :: rest => v.render :: renderItems rest

def renderFields : List (String × Value) → List String
  | [] => []
  | (key, v) :: rest => (Text.quote key ++ ": " ++ v.render) :: renderFields rest

end

/-! ## 2. Values that can be shown

A value cannot be shown if a number in it has too many digits, or if it is nested too deep for the
stack. -/

mutual

/-- Can every number of a value be written?  Only whole numbers can be too long: the other numbers
of a value have a bounded number of digits. -/
def Value.fits : Value → Bool
  | .int n => Decimal.IsWritable n
  | .list items => itemsFit items
  | .table fields => fieldsFit fields
  | _ => true

def itemsFit : List Value → Bool
  | [] => true
  | v :: rest => v.fits && itemsFit rest

def fieldsFit : List (String × Value) → Bool
  | [] => true
  | (_, v) :: rest => v.fits && fieldsFit rest

end

/-- Are other values nested in a value, or could they be? -/
def Value.isNested : Value → Bool
  | .list _ | .table _ => true
  | _ => false

/-- How many lists and tables stand around a value that is read.  They are counted apart, because
they cost the reader a different amount of its stack. -/
structure Nesting where
  lists : Nat := 0
  tables : Nat := 0
  deriving Repr, DecidableEq

def Nesting.inList (around : Nesting) : Nesting := { around with lists := around.lists + 1 }

def Nesting.inTable (around : Nesting) : Nesting := { around with tables := around.tables + 1 }

/-- The stack of a program, as far as nested values can use it up.  The two questions have nothing
to do with one another, for reading and showing a value take different ways through it.  What is
known of the answers is little: a value in which nothing is nested can always be shown, and what is
shown inside a list could be shown by itself. -/
class Stack where
  /-- Can the value at the start of a text be read where it stands?  All that is read of it before
  the next value is looked at counts, be it a key or a comment. -/
  enters (around : Nesting) (s : List Char) : Bool
  /-- Can a value be shown? -/
  shows (v : Value) : Bool
  /-- It takes no depth to show a value in which nothing is nested. -/
  shows_of_flat (v : Value) (hv : v.isNested = false) : shows v = true
  /-- An item takes less depth than its list. -/
  shows_of_mem (items : List Value) (v : Value) (hitems : shows (.list items) = true)
    (hv : v ∈ items) : shows v = true

mutual

/-- How deep lists and tables are nested in a value; nothing is nested in one that is neither. -/
def Value.depth : Value → Nat
  | .list items => itemsDepth items + 1
  | .table fields => fieldsDepth fields + 1
  | _ => 0

def itemsDepth : List Value → Nat
  | [] => 0
  | v :: rest => max v.depth (itemsDepth rest)

def fieldsDepth : List (String × Value) → Nat
  | [] => 0
  | (_, v) :: rest => max v.depth (fieldsDepth rest)

end

theorem Value.depth_of_flat {v : Value} (h : v.isNested = false) : v.depth = 0 := by
  cases v with
  | list | table => cases h
  | _ => rfl

theorem Value.depth_le_itemsDepth {v : Value} {items : List Value} (h : v ∈ items) :
    v.depth ≤ itemsDepth items := by
  induction items with
  | nil => cases h
  | cons first rest ih =>
    rw [itemsDepth]
    rcases List.mem_cons.1 h with rfl | h
    · exact Nat.le_max_left _ _
    · exact Nat.le_trans (ih h) (Nat.le_max_right _ _)

/-- A stack that holds out for so many lists and tables in one another, whatever else they hold.  It
is the plainest one that there is, and serves wherever an example needs a stack. -/
@[reducible]
def Stack.ofDepth (limit : Nat) : Stack where
  enters around _ := around.lists + around.tables ≤ limit
  shows v := v.depth ≤ limit
  shows_of_flat v hv := by
    rw [Value.depth_of_flat hv]
    exact decide_eq_true (Nat.zero_le limit)
  shows_of_mem items v hitems hv := by
    have hdepth : itemsDepth items + 1 ≤ limit := of_decide_eq_true hitems
    exact decide_eq_true (Nat.le_trans (Value.depth_le_itemsDepth hv) (Nat.le_of_succ_le hdepth))

/-- Can a value be written into a message?  The stack has to hold out, and no number may have too
many digits.  Which of the two fails first is not asked. -/
def Value.isWritable [Stack] (v : Value) : Bool := Stack.shows v && v.fits

end SmartEnter.Style
