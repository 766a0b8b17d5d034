/-
# Tokens

The kinds of token that a source buffer is cut into, the places of a buffer, and the characters that
make up identifiers and operators.  Offsets count characters from zero; lines and columns count from
one, and a line feed is the only character that starts a new line (`Position.advance`).

A token carries its kind, its text and two places, and there is more in it than is needed: the text
and the places determine one another once the buffer is known.  That they agree is not part of the
type, because the reader builds tokens from a cursor; it is proved of all tokens that come out of it
(`Proofs/Token/Places`).

The classes of characters are those of whole scripts, so that a name may be written in any of them.
Operators are a short list of characters, and a delimiter is a token of its own, whatever stands
around it.
-/
import SmartEnter.Unicode.Number

namespace SmartEnter

/-- The kinds of token, layout first and the end mark last.  `text` is the kind of a character that
nothing else begins with. -/
inductive TokenKind where
  | ws
  | newline
  | lineComment
  | blockComment
  | string
  | identifier
  | number
  | lbrace
  | rbrace
  | lparen
  | rparen
  | lbracket
  | rbracket
  | colon
  | semicolon
  | comma
  | operator
  | text
  | eof
  deriving Repr, DecidableEq

namespace TokenKind

/-- Every kind, in the order of the declaration, which is also the order in which sets of kinds are
shown. -/
def all : List TokenKind :=
  [ws, newline, lineComment, blockComment, string, identifier, number, lbrace, rbrace, lparen,
    rparen, lbracket, rbracket, colon, semicolon, comma, operator, text, eof]

/-- The name of a kind in messages and style tables. -/
def name : TokenKind → String
  | ws => "WS"
  | newline => "NEWLINE"
  | lineComment => "LINE_COMMENT"
  | blockComment => "BLOCK_COMMENT"
  | string => "STRING"
  | identifier => "IDENTIFIER"
  | number => "NUMBER"
  | lbrace => "LBRACE"
  | rbrace => "RBRACE"
  | lparen => "LPAREN"
  | rparen => "RPAREN"
  | lbracket => "LBRACKET"
  | rbracket => "RBRACKET"
  | colon => "COLON"
  | semicolon => "SEMICOLON"
  | comma => "COMMA"
  | operator => "OPERATOR"
  | text => "TEXT"
  | eof => "EOF"

end TokenKind

/-! ## 1. Places -/

/-- A place in a buffer: line and column from one, offset from zero.  The offset alone tells the
other two in a given text; they are kept because tokens are shown with them. -/
structure Position where
  line : Nat
  column : Nat
  offset : Nat
  deriving Repr, DecidableEq

namespace Position

/-- The place before the first character: the first line, the first column, and the offset zero. -/
def start : Position := ⟨1, 1, 0⟩

/-- The place behind a character that stands at `p`.  Only a line feed starts a new line, so a
carriage return is a column like any other character. -/
def step (p : Position) (c : Char) : Position :=
  if c = '\n' then ⟨p.line + 1, 1, p.offset + 1⟩ else ⟨p.line, p.column + 1, p.offset + 1⟩

/-- The place behind a text that starts at `p`, one character after the other. -/
def advance (p : Position) (s : List Char) : Position := s.foldl step p

@[simp]
theorem advance_nil (p : Position) : p.advance [] = p := rfl

@[simp]
theorem advance_cons (p : Position) (c : Char) (s : List Char) :
    p.advance (c :: s) = (p.step c).advance s := rfl

theorem advance_append (p : Position) (s t : List Char) :
    p.advance (s ++ t) = (p.advance s).advance t := by
  simp [advance]

@[simp]
theorem offset_step (p : Position) (c : Char) : (p.step c).offset = p.offset + 1 := by
  unfold step
  split <;> rfl

theorem offset_advance (p : Position) (s : List Char) :
    (p.advance s).offset = p.offset + s.length := by
  induction s generalizing p with
  | nil => rfl
  | cons c r ih => simp [ih]; omega

end Position

/-- A token: its kind, its text, and the places where it starts and stops.  The place where it stops
is the one where the next token starts. -/
structure Token where
  kind : TokenKind
  text : List Char
  start : Position
  stop : Position
  deriving Repr, DecidableEq

/-! ## 2. Classes of characters -/

namespace Token

/-- May the character start an identifier?  Letters of any script may, and digits may not. -/
def isIdentStart (c : Char) : Bool := Unicode.isLetter c || c = '_'

def isIdentChar (c : Char) : Bool := Unicode.isAlphanumeric c || c = '_'

def operatorChars : List Char :=
  ['+', '-', '*', '/', '%', '=', '<', '>', '!', '&', '|', '^', '~', '?', '.', '@', '$', '\\']

def isOperatorChar (c : Char) : Bool := c ∈ operatorChars

/-- The kind of a delimiter, a token of one character.  No delimiter is an operator character, so
the order in which the two are asked about does not matter. -/
def delimiter? : Char → Option TokenKind
  | '{' => some .lbrace
  | '}' => some .rbrace
  | '(' => some .lparen
  | ')' => some .rparen
  | '[' => some .lbracket
  | ']' => some .rbracket
  | ':' => some .colon
  | ';' => some .semicolon
  | ',' => some .comma
  | _ => none

theorem isIdentChar_of_isIdentStart {c : Char} (h : isIdentStart c = true) :
    isIdentChar c = true := by
  simp only [isIdentStart, Bool.or_eq_true] at h
  rcases h with h | h
  · simp [isIdentChar, Unicode.isAlphanumeric_of_isLetter h]
  · simp [isIdentChar, h]

end Token

end SmartEnter
