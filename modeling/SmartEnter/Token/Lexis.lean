/-
# From a text to its tokens

A `Lexis` is the lexical shape of a language: its comment markers and string quotes.  Reading never
fails, because a buffer is read again at every keystroke while its code is half typed: a string that
is not closed ends with its line, and a block comment that is not closed runs to the end.

`Lexis.next` reads one lexeme.  It returns the kind and what the lexeme has behind its first
character, so a lexeme is never empty and the rest of the text is always shorter (`Lexis.lexemes`).
Places are added afterwards (`place`), and `Lexis.tokens` closes the stream with an end mark.

The kinds are asked about in a fixed order, and where two of them could begin with a character the
first one wins.  Comments come before operators, since their markers are made of operator characters
in most languages, and an operator ends where a comment begins for the same reason (`operatorTail`).

A lexeme is determined by the text from its start on.  Nothing that was read before plays a part,
and that is what makes the stream of a text and the streams of its parts comparable at all.

What is here reads a list.  The reader that moves a cursor over a buffer is in
`Proofs/Token/Cursor`, with the proof that it gives the same tokens; the one shape of language for
which it gives none is a block comment that opens and closes with nothing.

Main statements: the lexemes make up the text (`flatMap_lexemes`), and the tail that `next` returns
is the first part of what it was given (`next_isPrefix`).
-/
import SmartEnter.Token.Basic
import SmartEnter.Text.Lines

namespace SmartEnter

open Text (isBlank isBreak)

/-- The lexical shape of a language.  The defaults are those of the family with slash comments.
Markers may be any texts, also empty ones or ones with line feeds; statements that need more of them
say so. -/
structure Lexis where
  /-- Markers that open a comment up to the end of the line, tried in order. -/
  lineComments : List (List Char) := [['/', '/']]
  /-- Opener and closer of comments that may span lines. -/
  blockComment : Option (List Char × List Char) := some (['/', '*'], ['*', '/'])
  /-- The characters that open and close a string. -/
  quotes : List Char := ['"', '\'']
  deriving Repr, DecidableEq

/-- A kind with the text it was read from.  It has no place yet, so the same lexeme may stand
anywhere. -/
structure Lexeme where
  kind : TokenKind
  text : List Char
  deriving Repr, DecidableEq

namespace Lexis

/-! ## 1. The parts of lexemes

Each function takes a text and gives the first part of it that belongs to a lexeme, behind the
characters that have been read of it. -/

/-- The text before the first line break.  A carriage return alone is part of the line, so it does
not end what is read here. -/
def untilBreak : List Char → List Char
  | [] => []
  | c :: rest => if isBreak (c :: rest) then [] else c :: untilBreak rest

/-- The text up to and with the first closer, or all of it if there is none.  An empty closer is
found at once, before the first character, except that at the end of the text there is nothing to be
found. -/
def throughCloser (closer : List Char) : List Char → List Char
  | [] => []
  | c :: rest =>
    if closer.isPrefixOf (c :: rest) then closer else c :: throughCloser closer rest

/-- The text of a string behind its opening quote: through the closing quote, or up to the end of
the line.  A backslash takes the next character with it, a line feed excepted.  The carriage return
of a line break is not excepted: a backslash before it takes it along, and the line feed is left to
be a break of its own. -/
def stringTail (quote : Char) : List Char → List Char
  | [] => []
  | '\\' :: d :: rest =>
    if d = '\n' then ['\\'] else '\\' :: d :: stringTail quote rest
  | c :: rest =>
    if isBreak (c :: rest) then []
    else if c = quote then [c]
    else c :: stringTail quote rest

/-- The text of a number: letters, digits, underscores, and points that a digit follows.  The
letters are those of prefixes, suffixes and exponents, and a point with no digit behind it is left
to be an operator. -/
def numberTail : List Char → List Char
  | [] => []
  | c :: rest =>
    if Token.isIdentChar c || (c = '.' && (rest.head?.any Unicode.isDigit)) then
      c :: numberTail rest
    else []

/-- Does a line comment marker stand at the start of the text?  An empty marker stands
everywhere. -/
def startsLineComment (L : Lexis) (s : List Char) : Bool := L.lineComments.any (·.isPrefixOf s)

def startsBlockComment (L : Lexis) (s : List Char) : Bool :=
  L.blockComment.any (·.1.isPrefixOf s)

/-- The operator characters up to the first other character or comment.  So a run of operator
characters is one lexeme, however many operators it may stand for. -/
def operatorTail (L : Lexis) : List Char → List Char
  | [] => []
  | c :: rest =>
    if Token.isOperatorChar c && !L.startsLineComment (c :: rest)
        && !L.startsBlockComment (c :: rest) then
      c :: operatorTail L rest
    else []

/-- The text of a block comment that opens at the start of the text.  The closer is looked for
behind the opener, so that the two never share a character. -/
def blockCommentText (L : Lexis) (s : List Char) : List Char :=
  match L.blockComment with
  | some (opener, closer) => s.take opener.length ++ throughCloser closer (s.drop opener.length)
  | none => []

/-! ## 2. One lexeme

What a lexeme is, its first character tells, together with what opens there.  The questions are
asked in a fixed order, so a text that could be read in two ways is read in the first. -/

/-- The kind of the lexeme that starts with `c`, and the rest of its text.  The order of the
questions is the order of the kinds' precedence. -/
def next (L : Lexis) (c : Char) (rest : List Char) : TokenKind × List Char :=
  if isBreak (c :: rest) then (.newline, if c = '\n' then [] else ['\n'])
  else if isBlank c then (.ws, rest.takeWhile isBlank)
  else if L.startsLineComment (c :: rest) then (.lineComment, untilBreak rest)
  else if L.startsBlockComment (c :: rest) then
    (.blockComment, (L.blockCommentText (c :: rest)).tail)
  else if c ∈ L.quotes then (.string, stringTail c rest)
  else
    match Token.delimiter? c with
    | some kind => (kind, [])
    | none =>
      if Token.isIdentStart c then (.identifier, rest.takeWhile Token.isIdentChar)
      else if Unicode.isDigit c then (.number, numberTail rest)
      else if Token.isOperatorChar c then (.operator, L.operatorTail rest)
      else (.text, [])

/-! ## 3. The whole text -/

/-- The lexemes of a text, one after the other.  Each of them takes at least the character it starts
with, so the rest is shorter. -/
def lexemes (L : Lexis) : List Char → List Lexeme
  | [] => []
  | c :: rest =>
    let (kind, tail) := L.next c rest
    ⟨kind, c :: tail⟩ :: lexemes L (rest.drop tail.length)
termination_by s => s.length
decreasing_by simp only [List.length_drop, List.length_cons]; omega

/-- Gives lexemes their places, the first one starting at `p`, and adds the end mark, which is empty
and stands behind the last of them. -/
def place (p : Position) : List Lexeme → List Token
  | [] => [⟨.eof, [], p, p⟩]
  | l :: rest => ⟨l.kind, l.text, p, p.advance l.text⟩ :: place (p.advance l.text) rest

/-- The tokens of a text, the end mark included.  So there is at least one, also of an empty
text. -/
def tokens (L : Lexis) (s : List Char) : List Token := place .start (L.lexemes s)

@[simp]
theorem lexemes_nil (L : Lexis) : L.lexemes [] = [] := by
  simp [lexemes]

theorem lexemes_cons (L : Lexis) (c : Char) (rest : List Char) :
    L.lexemes (c :: rest) = ⟨(L.next c rest).1, c :: (L.next c rest).2⟩ ::
      L.lexemes (rest.drop (L.next c rest).2.length) := by
  rw [lexemes]

/-! ## 4. Nothing is lost

Each function that reads a part of a lexeme returns a first part of the text it was given.  The
cases of the proofs follow the recursion of the functions.  From these parts it follows for a whole
lexeme, and from the lexemes for the whole text. -/

theorem untilBreak_isPrefix (s : List Char) : untilBreak s <+: s := by
  induction s with
  | nil => simp [untilBreak]
  | cons c r ih =>
    unfold untilBreak
    split
    · simp
    · simpa using ih

theorem throughCloser_isPrefix (closer s : List Char) : throughCloser closer s <+: s := by
  induction s with
  | nil => simp [throughCloser]
  | cons c r ih =>
    unfold throughCloser
    split
    · next h => exact List.isPrefixOf_iff_prefix.1 h
    · simpa using ih

theorem stringTail_isPrefix (quote : Char) (s : List Char) : stringTail quote s <+: s := by
  fun_induction stringTail quote s with
  | case1 => simp
  | case2 rest => simp
  | case3 d rest h ih => simpa using ih
  | case4 c rest _ h => simp
  | case5 rest _ h => simp
  | case6 c rest _ h hq ih => simpa using ih

theorem numberTail_isPrefix (s : List Char) : numberTail s <+: s := by
  induction s with
  | nil => simp [numberTail]
  | cons c r ih =>
    unfold numberTail
    split
    · simpa using ih
    · simp

theorem operatorTail_isPrefix (L : Lexis) (s : List Char) : L.operatorTail s <+: s := by
  induction s with
  | nil => simp [operatorTail]
  | cons c r ih =>
    unfold operatorTail
    split
    · simpa using ih
    · simp

theorem blockCommentText_isPrefix (L : Lexis) (s : List Char) : L.blockCommentText s <+: s := by
  unfold blockCommentText
  split
  · next opener closer _ =>
    conv => rhs; rw [← List.take_append_drop opener.length s]
    exact (List.prefix_append_right_inj _).2 (throughCloser_isPrefix closer _)
  · simp

/-- What a lexeme has behind its first character is the first part of what follows there.  So a
lexeme can be described by its length alone. -/
theorem next_isPrefix (L : Lexis) (c : Char) (rest : List Char) : (L.next c rest).2 <+: rest := by
  unfold next
  split
  · next h =>
    split
    · simp
    · next hc =>
      unfold isBreak at h
      split at h <;> simp_all
  split
  · exact List.takeWhile_prefix _
  split
  · exact untilBreak_isPrefix rest
  split
  · have h := L.blockCommentText_isPrefix (c :: rest)
    cases hs : L.blockCommentText (c :: rest) with
    | nil => simp
    | cons d t =>
      rw [hs] at h
      exact (List.cons_prefix_cons.1 h).2
  split
  · exact stringTail_isPrefix c rest
  split
  · simp
  split
  · exact List.takeWhile_prefix _
  split
  · exact numberTail_isPrefix rest
  split
  · exact L.operatorTail_isPrefix rest
  · simp

/-- **The lexemes make up the text**: no character is lost, added or moved, whatever the
language. -/
theorem flatMap_lexemes (L : Lexis) (s : List Char) : (L.lexemes s).flatMap Lexeme.text = s := by
  induction hn : s.length using Nat.strongRecOn generalizing s with
  | ind n ih =>
    cases s with
    | nil => simp
    | cons c rest =>
      rw [lexemes_cons, List.flatMap_cons, ih _ _ _ rfl]
      · rw [List.cons_append, List.prefix_iff_eq_append.1 (L.next_isPrefix c rest)]
      · simp at hn ⊢
        omega

end Lexis

end SmartEnter
