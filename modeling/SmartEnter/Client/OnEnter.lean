/-
# Enter in an editor client

A client asks what to do after it has put in a line break of its own, and maybe blanks behind it.
The text between the break and the cursor is cut out again, which gives back the buffer before the
press with the caret at the end of the line above, and the answer is one edit that takes the place
of what the client put in.

Nothing tells which blanks are the client's.  All that stand between the break and the cursor are
taken for its own, so blanks that were there before the press and now stand before the cursor go
with them; what stands behind the cursor stays.  Where something other than blanks stands before the
cursor there was no press of Enter to answer (`Typed.of?`).

The client counts columns in code units, and lines at every line terminator; the buffer counts lines
at line feeds.  So the line whose columns are counted (`columnOf`) may be another one than the line
that is edited, in a text that has other terminators.  The conversion of columns is that of a codec
about which little is known, and everything here works with any of them.

The break of the client is kept (`Typed.edit`), so the answer has the line ending that the client
chose, and not the line feed of the decision.
-/
import SmartEnter.Client.Edit
import SmartEnter.Enter.Decision
import SmartEnter.Language.Registry
import SmartEnter.Style.Settings

namespace SmartEnter.Client

open Text (Codec isBlank)

/-- A document that the client has open, as it was last told of it: the press of Enter is in the
text already. -/
structure OpenDocument where
  uri : String
  languageId : String
  text : List Char
  deriving Repr, DecidableEq

/-- What is known of the client and its documents: how it counts, how the user wants texts indented,
and the texts that are open. -/
structure Workspace where
  /-- How the client counts columns, in the encoding that was agreed on with it. -/
  codec : Codec := Text.Encoding.utf16.codec
  settings : Style.Settings := {}
  documents : List OpenDocument := []

namespace Workspace

/-- Opens a document or replaces it.  There is one document for each address. -/
def put (w : Workspace) (d : OpenDocument) : Workspace :=
  { w with documents := d :: w.documents.filter (·.uri ≠ d.uri) }

/-- The open document of an address.  An address is compared letter by letter, so two addresses of
one file are two documents. -/
def document? (w : Workspace) (uri : String) : Option OpenDocument :=
  w.documents.find? (·.uri == uri)

end Workspace

/-- The last part of an address.  It is all that is looked at where a language is guessed. -/
def lastPart (uri : String) : String :=
  String.ofList ((uri.toList.reverse.takeWhile (· ≠ '/')).reverse)

/-- The language of a document: the one the client names, if it is known, else the one of its file
name.  A client may name a language that nobody knows, and then the file name has a say. -/
def languageFor (languageId uri : String) : Option Language :=
  (Registry.builtin.get? languageId).or (Registry.builtin.forFilename (lastPart uri))

/-- How many characters of a line stand before a client's column; none on a line that is not there.
The line is looked up among the lines of a display, the break included. -/
def columnOf (codec : Codec) (source : List Char) (p : ClientPosition) : Nat :=
  match (Text.splitLines source)[p.line]? with
  | some line => codec.position line.full p.character
  | none => 0

/-- What the client put in: the offsets of its line break, of the line after it, and of the cursor.
They ascend, and only blanks stand between the last two. -/
structure Typed where
  breakStart : Nat
  lineStart : Nat
  cursor : Nat
  deriving Repr, DecidableEq

/-- Finds what the client put in before a place.  There is nothing to be found on the first line, on
a line that is not there, and where something other than blanks stands before the cursor.  The
cursor is drawn back to the end of the line, wherever its column would put it. -/
def Typed.of? (codec : Codec) (source : List Char) (p : ClientPosition) : Option Typed :=
  let d : Document := { text := source }
  if p.line = 0 ∨ d.lineCount ≤ p.line then none
  else
    let lineStart := d.startOf p.line
    let cursor := min (lineStart + columnOf codec source p) (d.endOf p.line)
    if ((source.take cursor).drop lineStart).all isBlank then
      some { breakStart := d.endOf (p.line - 1), lineStart, cursor }
    else none

namespace Typed

/-- The text before the press.  What was put in is cut out, and nothing else is changed. -/
def before (t : Typed) (source : List Char) : List Char :=
  source.take t.breakStart ++ source.drop t.cursor

/-- The edit that puts another text in the place of the client's blanks; its break stays.  The
numbers of the edit are those of the buffer's lines, in the units of the client. -/
def edit (t : Typed) (codec : Codec) (source : List Char) (line : Nat) (new : List Char) :
    TextEdit where
  start := ⟨line - 1, codec.length (({ text := source } : Document).contentOf (line - 1))⟩
  stop := ⟨line, codec.length ((source.take t.cursor).drop t.lineStart)⟩
  newText := (source.take t.lineStart).drop t.breakStart ++ new

end Typed

variable [Text.Memory]

/-- **The edit for a press of Enter at a place of an open document**, if there is any.  It is the
decision for the buffer before the press, said again as an edit of the buffer after it. -/
def onEnter (w : Workspace) (uri : String) (p : ClientPosition) (tabSize : Int) :
    Except Indent.Failure (Option TextEdit) := do
  let some opened := w.document? uri | return none
  let some language := languageFor opened.languageId uri | return none
  let some typed := Typed.of? w.codec opened.text p | return none
  let e : Enter.Editor :=
    { document := { text := typed.before opened.text }
      caret := typed.breakStart
      session := { languages := [language.id], tabWidth := tabSize } }
  let decision ← Enter.Decision.of language w.settings.formatters
    (w.settings.optionsFor language.id) e
  return decision.inserted.map fun text => typed.edit w.codec opened.text p.line (text.drop 1)

/-- Why there is no answer: a level that cannot be written, or a number that cannot be sent. -/
inductive ReplyFailure where
  | indent (failure : Indent.Failure)
  /-- A number of the edit is one that the protocol does not take. -/
  | outOfRange (e : OutOfRange)
  deriving Repr, DecidableEq

/-- The answer to a press of Enter: the edit, as the protocol takes it.  The numbers are looked at
last, so a document that is too long for the protocol is no hindrance to a decision that puts
nothing in. -/
def reply (w : Workspace) (uri : String) (p : ClientPosition) (tabSize : Int) :
    Except ReplyFailure (Option TextEdit) := do
  match ← (onEnter w uri p tabSize).mapError .indent with
  | none => return none
  | some edit => some <$> edit.checked.mapError .outOfRange

/-- The answer to a character that was typed; only a line feed asks for one. -/
def onType (w : Workspace) (uri : String) (p : ClientPosition) (typed : String) (tabSize : Int) :
    Except ReplyFailure (Option TextEdit) :=
  if typed = "\n" then reply w uri p tabSize else .ok none

end SmartEnter.Client
