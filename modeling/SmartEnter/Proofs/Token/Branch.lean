/-
# The ten branches of reading a lexeme

`Lexis.next` tries ten ways to go on, in order.  `Branch` names them: each constructor says under
which condition its way is taken, with the earlier ways ruled out, and what is read.  The function
takes exactly one branch (`next_eq_iff_branch`), so a proof about a lexeme is a case distinction
over the constructors, and nobody has to open the function again.

The conditions are said of the text from the lexeme on, and what the branch reads is a first part of
that text.  So a statement about a lexeme with some text `y` behind it (`Reads`) turns into one
about a branch with `y` at the end of its text (`reads_iff_branch`).
-/
import SmartEnter.Proofs.Token.Stream

namespace SmartEnter

open Text (isBlank isBreak)

namespace Lexis

variable {L : Lexis} {c : Char} {rest t : List Char} {k : TokenKind}

/-- Neither layout nor a comment starts the text.  This is where code starts, and all branches but
the first four have it as their condition. -/
structure StartsCode (L : Lexis) (c : Char) (rest : List Char) : Prop where
  noBreak : isBreak (c :: rest) = false
  noBlank : isBlank c = false
  noLineComment : L.startsLineComment (c :: rest) = false
  noBlockComment : L.startsBlockComment (c :: rest) = false

/-- The code that starts the text is neither a string nor a delimiter, so it is a word, a number, an
operator, or a character that is none of these. -/
structure StartsWord (L : Lexis) (c : Char) (rest : List Char) : Prop extends
    StartsCode L c rest where
  noQuote : c ∉ L.quotes
  noDelimiter : Token.delimiter? c = none

/-- How the lexeme that starts with `c` is read, with the kind and the rest of its text. -/
inductive Branch (L : Lexis) (c : Char) (rest : List Char) : TokenKind → List Char → Prop
  | newline (hb : isBreak (c :: rest) = true) :
      Branch L c rest .newline (if c = '\n' then [] else ['\n'])
  | ws (hb : isBreak (c :: rest) = false) (hw : isBlank c = true) :
      Branch L c rest .ws (rest.takeWhile isBlank)
  | lineComment (hb : isBreak (c :: rest) = false) (hw : isBlank c = false)
      (hl : L.startsLineComment (c :: rest) = true) :
      Branch L c rest .lineComment (untilBreak rest)
  | blockComment (hb : isBreak (c :: rest) = false) (hw : isBlank c = false)
      (hl : L.startsLineComment (c :: rest) = false)
      (ho : L.startsBlockComment (c :: rest) = true) :
      Branch L c rest .blockComment (L.blockCommentText (c :: rest)).tail
  | string (h : L.StartsCode c rest) (hq : c ∈ L.quotes) :
      Branch L c rest .string (stringTail c rest)
  | delimiter (h : L.StartsCode c rest) (hq : c ∉ L.quotes) {k : TokenKind}
      (hd : Token.delimiter? c = some k) : Branch L c rest k []
  | identifier (h : L.StartsWord c rest) (hi : Token.isIdentStart c = true) :
      Branch L c rest .identifier (rest.takeWhile Token.isIdentChar)
  | number (h : L.StartsWord c rest) (hi : Token.isIdentStart c = false)
      (hn : Unicode.isDigit c = true) : Branch L c rest .number (numberTail rest)
  | operator (h : L.StartsWord c rest) (hi : Token.isIdentStart c = false)
      (hn : Unicode.isDigit c = false) (ho : Token.isOperatorChar c = true) :
      Branch L c rest .operator (L.operatorTail rest)
  | text (h : L.StartsWord c rest) (hi : Token.isIdentStart c = false)
      (hn : Unicode.isDigit c = false) (ho : Token.isOperatorChar c = false) :
      Branch L c rest .text []

/-- Some branch is taken, and it says what is read. -/
theorem branch_next (L : Lexis) (c : Char) (rest : List Char) :
    Branch L c rest (L.next c rest).1 (L.next c rest).2 := by
  unfold next
  split
  · next hb => exact .newline hb
  next hb =>
  rw [Bool.not_eq_true] at hb
  split
  · next hw => exact .ws hb hw
  next hw =>
  rw [Bool.not_eq_true] at hw
  split
  · next hl => exact .lineComment hb hw hl
  next hl =>
  rw [Bool.not_eq_true] at hl
  split
  · next ho => exact .blockComment hb hw hl ho
  next ho =>
  rw [Bool.not_eq_true] at ho
  have hcode : L.StartsCode c rest := ⟨hb, hw, hl, ho⟩
  split
  · next hq => exact .string hcode hq
  next hq =>
  split
  · next k hd => exact .delimiter hcode hq hd
  next hd =>
  have hword : L.StartsWord c rest := ⟨hcode, hq, hd⟩
  split
  · next hi => exact .identifier hword hi
  next hi =>
  rw [Bool.not_eq_true] at hi
  split
  · next hn => exact .number hword hi hn
  next hn =>
  rw [Bool.not_eq_true] at hn
  split
  · next hop => exact .operator hword hi hn hop
  · next hop =>
    rw [Bool.not_eq_true] at hop
    exact .text hword hi hn hop

theorem Branch.next_eq (h : Branch L c rest k t) : L.next c rest = (k, t) := by
  cases h with
  | newline hb => simp [next, hb]
  | ws hb hw => simp [next, hb, hw]
  | lineComment hb hw hl => simp [next, hb, hw, hl]
  | blockComment hb hw hl ho => simp [next, hb, hw, hl, ho]
  | string h hq =>
    simp [next, h.noBreak, h.noBlank, h.noLineComment, h.noBlockComment, hq]
  | delimiter h hq hd =>
    simp [next, h.noBreak, h.noBlank, h.noLineComment, h.noBlockComment, hq, hd]
  | identifier h hi =>
    simp [next, h.noBreak, h.noBlank, h.noLineComment, h.noBlockComment, h.noQuote,
      h.noDelimiter, hi]
  | number h hi hn =>
    simp [next, h.noBreak, h.noBlank, h.noLineComment, h.noBlockComment, h.noQuote,
      h.noDelimiter, hi, hn]
  | operator h hi hn ho =>
    simp [next, h.noBreak, h.noBlank, h.noLineComment, h.noBlockComment, h.noQuote,
      h.noDelimiter, hi, hn, ho]
  | text h hi hn ho =>
    simp [next, h.noBreak, h.noBlank, h.noLineComment, h.noBlockComment, h.noQuote,
      h.noDelimiter, hi, hn, ho]

/-- **What is read is what the one branch that applies reads.** -/
theorem next_eq_iff_branch : L.next c rest = (k, t) ↔ Branch L c rest k t := by
  constructor
  · intro h
    have hb := L.branch_next c rest
    rwa [h] at hb
  · exact Branch.next_eq

theorem Branch.congr {t' : List Char} (h : Branch L c rest k t) (ht : t = t') :
    Branch L c rest k t' := ht ▸ h

/-- The kinds of delimiters are none of those that longer lexemes have, so a lexeme of such a kind
was not read as a delimiter. -/
theorem kind_of_delimiter (h : Token.delimiter? c = some k) :
    k ∉ [.ws, .newline, .lineComment, .blockComment, .string, .identifier, .number, .operator,
      .text, .eof] := by
  unfold Token.delimiter? at h
  split at h <;> cases h <;> decide

/-- A lexeme is read before `y` exactly if a branch reads it there. -/
theorem reads_iff_branch {l : Lexeme} {y : List Char} :
    L.Reads l y ↔ ∃ c rest t, l.text = c :: t ∧ rest = t ++ y ∧ Branch L c rest l.kind t := by
  constructor
  · rintro ⟨c, t, ht, hn⟩
    exact ⟨c, t ++ y, t, ht, rfl, next_eq_iff_branch.1 hn⟩
  · rintro ⟨c, _, t, ht, rfl, hb⟩
    exact ⟨c, t, ht, hb.next_eq⟩

end Lexis

end SmartEnter
