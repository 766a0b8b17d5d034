/-
# Diagnostics that show a place

A diagnostic names a line and a column of a text and shows the line with a mark under the column.
The place may lie outside the text: a line that does not exist is shown empty, and the mark stays
within one column of the line shown.

The line is looked up among the lines of a display (`Text.splitLines`), while the number it is
looked up by is that of a line of the buffer.  In a text that has other terminators than line feeds
these are two different things, and what is shown may be another line than the one meant.  The
number shown in front of it is the one of the buffer all the same.

Whether a diagnostic can be shown at all depends on its two numbers only (`IsWritable`).
-/
import SmartEnter.Decimal.Numeral
import SmartEnter.Text.Lines

namespace SmartEnter

/-- A message about a place of a text; line and column count from one, and may be any integers. -/
structure Diagnostic where
  message : String
  line : Int
  column : Int
  source : List Char
  deriving Repr, DecidableEq

namespace Diagnostic

/-- The line the diagnostic is about, without its terminator; empty if there is no such line, above
the text or below it. -/
def sourceLine (d : Diagnostic) : List Char :=
  if d.line ≤ 0 then []
  else (((Text.splitLines d.source)[(d.line - 1).toNat]?).map (·.content)).getD []

/-- How many characters of the line stand before the mark.  The mark is put under the place behind
the line if the column lies further out, and under the first character if it lies before the
line. -/
def markOffset (d : Diagnostic) : Nat :=
  (max 1 (min d.column (d.sourceLine.length + 1)) - 1).toNat

/-- The diagnostic as a compiler would print it, for a file of the given name.  The gutter is as
wide as the number of the line, so that the bars stand below one another. -/
def render (d : Diagnostic) (file : String) : String :=
  let number := toString d.line
  let gutter := String.ofList (List.replicate (number.length + 1) ' ')
  let mark := String.ofList (List.replicate d.markOffset ' ')
  String.intercalate "\n" [
    "error: " ++ d.message,
    gutter ++ "--> " ++ file ++ ":" ++ number ++ ":" ++ toString d.column,
    gutter ++ "|",
    number ++ " | " ++ String.ofList d.sourceLine,
    gutter ++ "| " ++ mark ++ "^"]

/-- Can the diagnostic be printed, with its line and its column? -/
def IsWritable (d : Diagnostic) : Prop := Decimal.IsWritable d.line ∧ Decimal.IsWritable d.column

instance (d : Diagnostic) : Decidable d.IsWritable := by unfold IsWritable; infer_instance

def bufferName : String := "<buffer>"

end Diagnostic

end SmartEnter
