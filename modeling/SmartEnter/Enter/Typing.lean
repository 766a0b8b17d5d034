/-
# Typing with Enter

A typing state is a buffer with all that a press of Enter depends on.  Keys change it one after the
other: Enter inserts what was decided and moves the caret behind it, other text is put in at the
caret, and the caret may be moved to a place or to any offset.

A state has the language and the settings in it, so a run of keys is a matter of one value that
changes.  What stays the same throughout a run, such as the language, is then a fact about the steps
(`Typing.after`).  Two carets must not be mixed up here: the one of the state is the offset at which
the next key acts, and the one that a press reports is for the screen.

`pressEnter` is a single press in a text, for a language given by its id.
-/
import SmartEnter.Enter.Decision
import SmartEnter.Language.Registry

namespace SmartEnter.Enter

variable [Text.Memory]

/-- A buffer under the hands of somebody who types.  The caret is an offset that nobody has checked,
as it is in an editor. -/
structure Typing where
  document : Document
  caret : Int := 0
  language : Language
  formatters : Formatters := []
  options : Indent.Options := {}
  /-- The languages of the buffer, if they are not just the language in use. -/
  languages : Option (List String) := none
  viewer : Bool := false
  tabWidth : Int := 4
  deriving Repr, DecidableEq

/-- A press of Enter: what it came to, the document after it, and the caret in that document. -/
structure Pressed where
  result : Result
  document : Document
  caret : Except CaretFailure Caret

namespace Typing

def editor (t : Typing) : Editor where
  document := t.document
  caret := t.caret
  session :=
    { languages := t.languages.getD [t.language.id], viewer := t.viewer, tabWidth := t.tabWidth }

/-- What Enter comes to; without an editor it comes to nothing.  The state is not changed by
asking. -/
def enter (t : Typing) (inEditor : Bool) : Except Indent.Failure Pressed := do
  let result ← press t.language t.formatters t.options (if inEditor then some t.editor else none)
  let document := result.apply t.document
  return { result, document, caret := result.caretAfter document t.tabWidth }

/-- The state after a press: the caret stands behind what was put in, or where it was if nothing
was. -/
def after (t : Typing) (p : Pressed) : Typing :=
  { t with
    document := p.document
    caret := (p.result.insertion.map fun i => i.offset + (i.text.length : Int)).getD t.caret }

/-- Puts in a text at the caret, which moves behind it.  Nothing is added to the text, so this is
not how a line break of Enter is typed. -/
def put (t : Typing) (s : List Char) : Typing :=
  { t with document := t.document.insert t.caret s, caret := t.caret + s.length }

/-- Moves the caret to a line and a column, if there is such a place; else the state is as it
was. -/
def moveTo (t : Typing) (line column : Int) : Except PositionError Typing := do
  return { t with caret := ← t.document.offsetAt line column }

end Typing

/-! ## 1. One press in a text -/

/-- Why a press in a text has no result: the language is not known, or a level cannot be written. -/
inductive PressFailure where
  | unknownLanguage (id : String)
  | indent (failure : Indent.Failure)
  deriving Repr, DecidableEq

namespace PressFailure

def message : PressFailure → String
  | unknownLanguage id => "unknown language: " ++ id
  | indent failure => failure.message

end PressFailure

/-- Presses Enter in a text of a built-in language; returns the new text and what was decided.  The
buffer may be changed and has text of this language only. -/
def pressEnter (source : List Char) (caret : Int) (id : String) (options : Indent.Options := {})
    (tabWidth : Int := 4) : Except PressFailure (List Char × Result) :=
  match Registry.builtin.get? id with
  | none => .error (.unknownLanguage id)
  | some language =>
    let t : Typing := { document := { text := source }, caret, language, options, tabWidth }
    match t.enter true with
    | .error failure => .error (.indent failure)
    | .ok p => .ok (p.document.text, p.result)

end SmartEnter.Enter
