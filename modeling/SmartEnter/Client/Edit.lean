/-
# Edits of a client's document

A client names a place by a line and by the code units before it on the line.
`ClientPosition.offset` finds the place in a text whose lines end at line feeds, and
`TextEdit.apply` makes an edit there.

This is how a client reads an answer: it knows the text and the encoding, and takes a column that is
too large for its line as the end of the line.  What an answer means is stated with these functions,
so that it is the text that comes out of an edit that counts, and not the numbers in it.

The protocol has a largest number, for lines and columns alike.  A request cannot hold a larger one,
and neither can an answer; a document would have to be longer than that for the limit to matter
(`TextEdit.checked`).
-/
import SmartEnter.Document
import SmartEnter.Text.CodeUnits

namespace SmartEnter.Client

open Text (Codec)

/-- A place as the client counts it: a line from zero, and code units before it on the line.  There
need be no such place in the text. -/
structure ClientPosition where
  line : Nat
  character : Nat
  deriving Repr, DecidableEq

/-- The largest number that the protocol takes, in either direction: a number of the protocol is one
of 31 bits and has no sign. -/
def numberLimit : Nat := 0x7fffffff

/-- A number that is out of range, and the field that it was meant for.  The message names the field
as the protocol does, with the type that it belongs to. -/
structure OutOfRange where
  field : String
  value : Int
  deriving Repr, DecidableEq

def OutOfRange.message (e : OutOfRange) : String :=
  e.field ++ " should be in range [0:" ++ toString numberLimit ++ "], but was "
    ++ toString e.value ++ "."

/-- A number for a field of a message.  Those below zero are out of range as well. -/
def number (field : String) (n : Int) : Except OutOfRange Nat :=
  if 0 ≤ n ∧ n ≤ numberLimit then .ok n.toNat else .error ⟨field, n⟩

def ClientPosition.ofInts (line character : Int) : Except OutOfRange ClientPosition := do
  return ⟨← number "Position.line" line, ← number "Position.character" character⟩

/-- The tab width that a client sends.  Zero is in range, and what comes of it is left to the
decision. -/
def tabSizeOfInt (n : Int) : Except OutOfRange Nat := number "FormattingOptions.tab_size" n

/-- The offset of a place; a place beyond its line stands for the end of the line, and one on a line
that is not there for the end of the text. -/
def ClientPosition.offset (codec : Codec) (d : Document) (p : ClientPosition) : Nat :=
  d.startOf p.line + codec.charsFor p.character (d.contentOf p.line)

/-- A text that takes the place of the one between two places, which are both places of the text
before the edit. -/
structure TextEdit where
  start : ClientPosition
  stop : ClientPosition
  newText : List Char
  deriving Repr, DecidableEq

/-- The edit as the protocol takes it, with no number that is out of range.  The first such number
is the one that is reported. -/
def TextEdit.checked (e : TextEdit) : Except OutOfRange TextEdit := do
  let start ← ClientPosition.ofInts e.start.line e.start.character
  let stop ← ClientPosition.ofInts e.stop.line e.stop.character
  return { e with start, stop }

/-- The text after an edit.  What stands before its start and behind its stop is kept as it is. -/
def TextEdit.apply (codec : Codec) (e : TextEdit) (source : List Char) : List Char :=
  let d : Document := { text := source }
  source.take (e.start.offset codec d) ++ e.newText ++ source.drop (e.stop.offset codec d)

end SmartEnter.Client
