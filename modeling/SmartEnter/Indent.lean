/-
# Indents

An indent is the run of spaces and tabs at the start of a line.  Nothing says which of the two a
buffer uses: `deepen` reads the style off the indent it extends, else off the first indented line of
the document, and asks the options only if there is no indent at all.

What is read off an indent is its last character, and nothing else.  So a level behind an indent
that mixes the two is written in what the indent ends in, and the characters before it stay as they
are: an indent is only ever extended.

The size of a level is in columns, and there are two ways to fill it.  With spaces it takes as many
as there are columns.  With tabs it takes as many as cover the columns, and at least one, so a level
may come out wider than was asked for (`tabCount`).  In either way the count may be too large for a
text; the failure then says so and no text is made (`level`).

Widths are in columns, and a tab counts a fixed number of them (`displayWidth`).  There are no tab
stops: a tab behind a space is as wide as one at the start of a line.
-/
import SmartEnter.Document
import SmartEnter.Text.Repeat

namespace SmartEnter.Indent

open Text (isBlank)

/-- How wide one level is, how wide a tab is, and whether an unindented buffer gets tabs.  Sizes are
any integers here; that they are positive is a condition of what is proved, and style files see to
it. -/
structure Options where
  useTabs : Bool := false
  size : Int := 4
  tabSize : Int := 4
  deriving Repr, DecidableEq

/-- Why there is no text of one level.  The old indent has no part in it, so a failure says nothing
of the line that was to be indented. -/
inductive Failure where
  /-- A level cannot be made up of tabs that have no width. -/
  | zeroTabSize
  /-- A level may be too wide to be written. -/
  | width (failure : Text.RepeatFailure)
  deriving Repr, DecidableEq

def Failure.message : Failure → String
  | zeroTabSize => "integer division or modulo by zero"
  | width failure => failure.message

/-- The first indent of a document that is not empty; empty if no line is indented.  A line of
nothing but blanks counts: its indent is all of it. -/
def ofDocument (d : Document) : List Char :=
  (((Text.sourceLines d.text).map (·.content.takeWhile isBlank)).find? (· ≠ [])).getD []

/-- The number of tabs that cover `size` columns, at least one.  The quotient is rounded down and
corrected if a rest is left, so sizes below zero come to the one tab that is always there. -/
def tabCount (size tabSize : Int) : Except Failure Nat :=
  if tabSize = 0 then .error .zeroTabSize
  else
    let whole := size.fdiv tabSize
    .ok (max 1 (if size.fmod tabSize = 0 then whole else whole + 1)).toNat

/-- Is a buffer that shows the indent `seen` indented with tabs?  The last character decides, and
the options decide if there is none. -/
def usesTabs (seen : List Char) (options : Options) : Bool :=
  match seen.getLast? with
  | none => options.useTabs
  | some c => c ≠ ' '

/-- How many columns a text takes when a tab takes `tabWidth` and every other character one.  It is
additive, which is what makes widths of extended indents easy to reason about. -/
def displayWidth (s : List Char) (tabWidth : Int) : Int :=
  s.foldr (fun c width => (if c = '\t' then tabWidth else 1) + width) 0

@[simp]
theorem displayWidth_nil (tabWidth : Int) : displayWidth [] tabWidth = 0 := rfl

@[simp]
theorem displayWidth_cons (c : Char) (s : List Char) (tabWidth : Int) :
    displayWidth (c :: s) tabWidth =
      (if c = '\t' then tabWidth else 1) + displayWidth s tabWidth := rfl

@[simp]
theorem displayWidth_append (s t : List Char) (tabWidth : Int) :
    displayWidth (s ++ t) tabWidth = displayWidth s tabWidth + displayWidth t tabWidth := by
  induction s with
  | nil => rw [List.nil_append, displayWidth_nil, Int.zero_add]
  | cons c r ih => rw [List.cons_append, displayWidth_cons, displayWidth_cons, ih, Int.add_assoc]

variable [Text.Memory]

/-- One level, in tabs or in spaces.  It can fail in two ways: tabs without a width cannot cover
anything, and there may be too many characters for a text. -/
def level (tabs : Bool) (options : Options) : Except Failure (List Char) := do
  if tabs then
    let count ← tabCount options.size options.tabSize
    (Text.repeated count '\t').mapError .width
  else (Text.repeated options.size ' ').mapError .width

/-- **An indent with one more level**, in the style of the indent or else of the document.  The old
indent is kept in front of the level, whatever it is made of. -/
def deepen (old : List Char) (d : Document) (options : Options) : Except Failure (List Char) :=
  let seen := if old = [] then ofDocument d else old
  (old ++ ·) <$> level (usesTabs seen options) options

end SmartEnter.Indent
