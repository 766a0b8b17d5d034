/-
# What pressing Enter does

A press of Enter ends in a `Result`: whether the key is used up, what is put into the document, and,
in some cases, where the caret goes.  The result is applied to the document it was found for
(`Result.apply`), and the caret is reported in the document that comes out (`Result.caretAfter`).

The two steps are separate, for a result is found without a change to anything.  An editor applies
it, the command line applies it and writes the text, and an editor client is told what to change and
applies it itself.

A caret is a pair of a line and a display column, and not an offset: it is for the screen, where a
tab is as wide as the session says.  Some results choose one of their own.  For the others it is the
place behind the insertion, which has to be looked up in the document that has the insertion in it.
-/
import SmartEnter.Indent
import SmartEnter.Language.Basic

namespace SmartEnter.Enter

/-- Is the key left to the next handler, or used up?  Nothing is put in when it is left. -/
inductive Outcome where
  | defer
  | stop
  deriving Repr, DecidableEq

namespace Outcome

def name : Outcome → String
  | defer => "continue"
  | stop => "stop"

end Outcome

/-- A text put in at an offset of the document before the press.  It is the offset of the caret as
the editor gave it, which need not be one of the document. -/
structure Insertion where
  offset : Int
  text : List Char
  deriving Repr, DecidableEq

/-- A caret on the screen: a line and a display column, both from zero.  It may lie where no
character is. -/
structure Caret where
  line : Int
  column : Int
  deriving Repr, DecidableEq

/-- What a press of Enter comes to.  A result that stops has an insertion, and one that defers has
neither an insertion nor a caret, if it came out of a decision. -/
structure Result where
  outcome : Outcome
  insertion : Option Insertion := none
  caret : Option Caret := none
  deriving Repr, DecidableEq

/-- The result that leaves all to the next handler, with no text and no caret. -/
def Result.deferred : Result := { outcome := .defer }

/-- What an editor shows one buffer as.  The decision looks at it to see whether the key is its
business at all, and for the width of tabs where it reports a caret. -/
structure Session where
  /-- The ids of the languages that the buffer has text of. -/
  languages : List String
  /-- Does the editor show the buffer only? -/
  viewer : Bool := false
  tabWidth : Int := 4
  deriving Repr, DecidableEq

/-- A document with a caret in it; the caret is an offset that nobody has checked, so it may lie
before the text or behind it. -/
structure Editor where
  document : Document
  caret : Int
  session : Session
  deriving Repr, DecidableEq

/-- The ids of the languages whose formatter takes care of Enter.  The decision leaves it to the
formatter to indent the new line, and splits comments all the same. -/
abbrev Formatters := List String

/-! ## 1. After the decision -/

/-- A caret cannot be told from a result that has neither a caret nor an insertion. -/
inductive CaretFailure where
  | noInsertion
  deriving Repr, DecidableEq

namespace CaretFailure

def message : CaretFailure → String
  | noInsertion => "result has no insertion"

end CaretFailure

namespace Result

/-- The document after the press; a deferred key changes nothing, and an insertion takes nothing
out. -/
def apply (r : Result) (d : Document) : Document :=
  match r.outcome, r.insertion with
  | .stop, some i => d.insert i.offset i.text
  | _, _ => d

/-- The caret behind an insertion that was made in a document.  The column is the width of what the
line has before it, tabs as wide as the session says. -/
def caretBehind (d : Document) (i : Insertion) (tabWidth : Int) : Caret :=
  let stop := i.offset + i.text.length
  let line := d.lineNumber stop
  ⟨line, Indent.displayWidth (Text.slice d.text (d.startOf line) stop) tabWidth⟩

/-- The caret in the document after the press: the one that was chosen, or behind the insertion.  A
deferred key leaves no caret to be told. -/
def caretAfter (r : Result) (d : Document) (tabWidth : Int) : Except CaretFailure Caret :=
  match r.caret, r.insertion with
  | some caret, _ => .ok caret
  | none, some i => .ok (caretBehind d i tabWidth)
  | none, none => .error .noInsertion

end Result

end SmartEnter.Enter
