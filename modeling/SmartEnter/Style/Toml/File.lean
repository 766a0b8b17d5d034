/-
# Style files

Reads a style file line by line.  A line is empty, a comment, a header that opens a section
(`[table]` or `[[list of tables]]`), or a key with a value; a comment may stand behind the last two.
Lists and inline tables are read here as well, because their items are values again.  With every
list and every inline table the reader needs more of the stack, so it asks of each value whether the
stack still holds out where the value stands (`Stack.enters`).

The stack is asked, and no depth is laid down here, because there is none to be laid down: how deep
the reader gets depends on how it was called and on what is nested in what.  What is known of a file
that is too deep is only that it is, and that its reader ends there.  Headers and keys with points
may be as long as they like, for the tree is built from them without going deeper into the reader.

Values are read with fuel, since a list and its items call on one another.  The fuel is the length
of the text, and each value takes a character at least.

The last line may or may not end in a line break.  A carriage return that is not before a line feed
is a control character, and makes the file malformed wherever it stands.
-/
import SmartEnter.Style.Toml.Outline

namespace SmartEnter.Style.Toml

open Text (isBlank)

/-! ## 1. Blanks and comments -/

/-- The text behind a comment that opens at the start, or all of it if none does.  The line break
behind the comment is left. -/
def skipComment : List Char → Except Failure (List Char)
  | '#' :: rest =>
    if (rest.takeWhile (· ≠ '\n')).any isControl then .error .malformed
    else .ok (rest.dropWhile (· ≠ '\n'))
  | s => .ok s

/-- The text without the blanks, line breaks and comments at its start; it may start in a comment.
This is what may stand between the items of a list. -/
def skipFiller (inComment : Bool) : List Char → Except Failure (List Char)
  | [] => .ok []
  | c :: rest =>
    if c = '\n' then skipFiller false rest
    else if inComment then if isControl c then .error .malformed else skipFiller true rest
    else if isBlank c then skipFiller false rest
    else if c = '#' then skipFiller true rest
    else .ok (c :: rest)

def skipAll (s : List Char) : Except Failure (List Char) := skipFiller false s

/-! ## 2. Values -/

variable [Stack]

mutual

/-- A value; `fuel` bounds the number of values and lists in it. -/
def valueWith : (fuel : Nat) → Nesting → List Char → Except Failure (Value × List Char)
  | 0, _, _ => .error .malformed
  | fuel + 1, around, s =>
    if !Stack.enters around s then .error .tooDeep
    else
      match s with
      | '[' :: rest => do
        let (items, rest) ← itemsWith fuel around.inList (← skipAll rest)
        return (.list items, rest)
      | '{' :: rest =>
        match skipBlanks rest with
        | '\x7d' :: rest => .ok (.table [], rest)
        | rest => do
          let (children, rest) ← fieldsWith fuel around.inTable [] rest
          return (.table (childValues children), rest)
      | s => scalar s

/-- The items of a list, through its closing bracket.  A comma may stand behind the last one. -/
def itemsWith : (fuel : Nat) → Nesting → List Char → Except Failure (List Value × List Char)
  | 0, _, _ => .error .malformed
  | _ + 1, _, ']' :: rest => .ok ([], rest)
  | fuel + 1, around, s => do
    let (v, rest) ← valueWith fuel around s
    match ← skipAll rest with
    | ']' :: rest => return ([v], rest)
    | ',' :: rest => do
      let (items, rest) ← itemsWith fuel around (← skipAll rest)
      return (v :: items, rest)
    | _ => .error .malformed

/-- The fields of an inline table, through its closing brace.  Its keys may have points, as those of
a section, and a line break between the fields is not allowed. -/
def fieldsWith :
    (fuel : Nat) → Nesting → Children → List Char → Except Failure (Children × List Char)
  | 0, _, _, _ => .error .malformed
  | fuel + 1, around, children, s => do
    let (name, rest) ← key s
    match rest with
    | '=' :: rest => do
      let (v, rest) ← valueWith fuel around (skipBlanks rest)
      let children ← assign [] 0 name v children
      match skipBlanks rest with
      | '\x7d' :: rest => return (children, rest)
      | ',' :: rest => fieldsWith fuel around children (skipBlanks rest)
      | _ => .error .malformed
    | _ => .error .malformed

end

/-! ## 3. Lines -/

/-- What has been read of a file.  A key belongs to the last header, and before the first one to the
table of the whole file. -/
structure Progress where
  /-- The number of headers so far. -/
  sections : Nat := 0
  /-- The last header. -/
  header : List String := []
  children : Children := []

/-- A key with a value.  The blanks around the equals sign are skipped, and what stands behind the
value is left. -/
def assignment (p : Progress) (s : List Char) : Except Failure (Progress × List Char) := do
  let (name, rest) ← key s
  match rest with
  | '=' :: rest => do
    let rest := skipBlanks rest
    let (v, rest) ← valueWith rest.length.succ {} rest
    return ({ p with children := ← assign p.header p.sections name v p.children }, rest)
  | _ => .error .malformed

/-- A header, behind its opening bracket.  It opens the section of a table, or with two brackets
that of one more table in a list. -/
def header (p : Progress) (s : List Char) : Except Failure (Progress × List Char) := do
  let sections := p.sections + 1
  match s with
  | '[' :: rest => do
    let (name, rest) ← key (skipBlanks rest)
    let children ← atHeader name appendTable p.children
    match rest with
    | ']' :: ']' :: rest => return ({ sections, header := name, children }, rest)
    | _ => .error .malformed
  | s => do
    let (name, rest) ← key (skipBlanks s)
    let children ← atHeader name (defineTable sections) p.children
    match rest with
    | ']' :: rest => return ({ sections, header := name, children }, rest)
    | _ => .error .malformed

/-- The statement of a line, if it has one.  The end of the line is not looked for, as that is the
same for every statement. -/
def statement (p : Progress) : List Char → Except Failure (Progress × List Char)
  | [] => .ok (p, [])
  | '[' :: rest => header p rest
  | c :: rest =>
    if c = '\n' ∨ c = '#' then .ok (p, c :: rest) else assignment p (c :: rest)

/-- The lines of a file; `fuel` bounds their number.  Behind its statement a line has blanks and a
comment at most. -/
def linesWith : (fuel : Nat) → Progress → List Char → Except Failure Progress
  | 0, p, _ => .ok p
  | fuel + 1, p, s => do
    let (p, rest) ← statement p (skipBlanks s)
    match ← skipComment (skipBlanks rest) with
    | [] => return p
    | '\n' :: rest => linesWith fuel p rest
    | _ => .error .malformed

/-- **The table that a file holds**, or why it holds none.  A carriage return in front of a line
feed is left out first, so the two styles of line breaks are read alike. -/
def read (s : List Char) : Except Failure Table := do
  let s := Text.joinBreaks s
  let p ← linesWith s.length.succ {} s
  return childValues p.children

end SmartEnter.Style.Toml
