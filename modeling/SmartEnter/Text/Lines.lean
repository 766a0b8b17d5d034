/-
# Lines of a text

Two ways to read a text as lines.

* `sourceLines` ends a line at a line feed only, a carriage return right before it belonging to the
  break.  There is always a last line without a break, which may be empty.
* `splitLines` ends a line at every line terminator that a text display knows: line feed, carriage
  return (with the line feed that follows it, if one does), vertical tab, form feed, the three
  information separators, next line, and the line and paragraph separators.  A terminator at the
  very end opens no further line.

The first is the way of a source buffer, and everything that counts lines counts these.  The second
is the way of a display.  It comes in where a line is looked up in order to be shown, and where a
client counts columns.  The two give the same lines, an empty last one apart, as long as the only
terminators of the text are line feeds, with or without carriage returns.  What follows from the
difference in other texts is a matter of its own, for diagnostics as well as for clients.

Both are functions on the text alone, by recursion on its characters, and keep the terminator of
every line beside the line.  So nothing of the text is lost: the lines of either kind, terminators
included, make up the text (`flatMap_full_sourceLines`, `flatMap_full_splitLines`).
-/

namespace SmartEnter.Text

/-! ## 1. Blanks and line breaks of a source buffer -/

/-- Spaces and tabs, the characters of an indent.  No other white space counts: a form feed or a
no-break space at the start of a line is text, and so the indent ends before it. -/
def isBlank (c : Char) : Bool := c = ' ' || c = '\t'

/-- Does the text start with a line feed, or with a carriage return and a line feed?  A carriage
return without a line feed behind it is a character like any other. -/
def isBreak : List Char → Bool
  | '\n' :: _ => true
  | '\r' :: '\n' :: _ => true
  | _ => false

/-- The text with every carriage return and line feed made a line feed alone.  A carriage return
that stands before another one, or before no line feed, stays as it is. -/
def joinBreaks : List Char → List Char
  | [] => []
  | '\r' :: '\n' :: rest => '\n' :: joinBreaks rest
  | c :: rest => c :: joinBreaks rest

/-! ## 2. Lines at line feeds -/

/-- A line with the terminator that ends it, which is empty for an unfinished last line.  Only the
terminator tells an empty last line of a text from a line that is empty and complete. -/
structure Line where
  content : List Char
  terminator : List Char
  deriving Repr, DecidableEq

/-- The whole line, terminator included. -/
def Line.full (line : Line) : List Char := line.content ++ line.terminator

/-- Puts a character in front of the first line.  Without a line, the character is a line of its
own, which nothing ends. -/
def consLine (c : Char) : List Line → List Line
  | [] => [⟨[c], []⟩]
  | line :: rest => { line with content := c :: line.content } :: rest

/-- The lines of a source buffer, which end at line feeds; the last one has no break.  A text of `n`
line feeds has `n + 1` lines, whatever its carriage returns. -/
def sourceLines : List Char → List Line
  | [] => [⟨[], []⟩]
  | '\n' :: rest => ⟨[], ['\n']⟩ :: sourceLines rest
  | '\r' :: '\n' :: rest => ⟨[], ['\r', '\n']⟩ :: sourceLines rest
  | c :: rest => consLine c (sourceLines rest)

theorem flatMap_full_consLine (c : Char) (lines : List Line) :
    (consLine c lines).flatMap Line.full = c :: lines.flatMap Line.full := by
  cases lines <;> simp [consLine, Line.full]

/-- **The lines of a source buffer with their breaks make up its text.**  So a buffer can be given
by its lines. -/
theorem flatMap_full_sourceLines (s : List Char) : (sourceLines s).flatMap Line.full = s := by
  fun_induction sourceLines s with
  | case1 => rfl
  | case2 rest ih => simp [ih, Line.full]
  | case3 rest ih => simp [ih, Line.full]
  | case4 c rest _ _ ih => simp [flatMap_full_consLine, ih]

/-! ## 3. Lines at every terminator

A display breaks lines at more characters than a buffer does, so its lines are parts of the lines of
the buffer, with a carriage return alone breaking a line as well. -/

/-- Characters that end a line of any text.  A line feed behind a carriage return belongs to the
same terminator, which `splitLines` sees to. -/
def isTerminator (c : Char) : Bool :=
  c ∈ ['\n', '\r', '\x0B', '\x0C', '\x1C', '\x1D', '\x1E', '\u0085', '\u2028', '\u2029']

/-- The lines of a text, at every line terminator.  The empty text has no line, and a text that ends
in a terminator no line behind it. -/
def splitLines : List Char → List Line
  | [] => []
  | '\r' :: '\n' :: rest => ⟨[], ['\r', '\n']⟩ :: splitLines rest
  | c :: rest =>
    if isTerminator c then ⟨[], [c]⟩ :: splitLines rest else consLine c (splitLines rest)

/-- **The lines with their terminators make up the text**, here as well: what makes a line a line
differs, and nothing is lost in either way. -/
theorem flatMap_full_splitLines (s : List Char) : (splitLines s).flatMap Line.full = s := by
  fun_induction splitLines s with
  | case1 => rfl
  | case2 rest ih => simp [ih, Line.full]
  | case3 c rest _ h ih => simp [ih, Line.full]
  | case4 c rest _ h ih => simp [flatMap_full_consLine, ih]

end SmartEnter.Text
