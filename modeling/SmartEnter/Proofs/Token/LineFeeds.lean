/-
# Which lexemes have line feeds

A line feed is a line break of its own, the end of one, or part of a block comment; no other lexeme
goes over the end of a line (`Reads.kind_of_newline_mem`).  What starts a lexeme tells a line break
and white space from everything else (`Reads.kind_of_isBlank`, `Reads.isBreak_of_newline`).

This is what makes lines independent of each other for all but block comments: a lexeme that starts
on a line and is no block comment ends on that line, or with its break.
-/
import SmartEnter.Proofs.Token.Kinds

namespace SmartEnter

open Text (isBlank isBreak isBreak_cons_iff)

namespace Lexis

variable {L : Lexis} {l : Lexeme} {y : List Char}

theorem not_mem_stringTail (q : Char) (s : List Char) : '\n' ∉ stringTail q s := by
  fun_induction stringTail q s with
  | case1 => exact List.not_mem_nil
  | case2 => decide
  | case3 d rest hd ih => simp [ih, Ne.symm hd]
  | case4 => exact List.not_mem_nil
  | case5 rest _ hb =>
    intro h
    rw [← List.mem_singleton.1 h] at hb
    exact hb rfl
  | case6 c rest _ hb _ ih =>
    intro h
    rcases List.mem_cons.1 h with rfl | h
    · exact hb rfl
    · exact ih h

theorem not_mem_numberTail (s : List Char) : '\n' ∉ numberTail s := by
  induction s with
  | nil => exact List.not_mem_nil
  | cons c s ih =>
    rw [numberTail]
    split
    · next hc =>
      intro h
      rcases List.mem_cons.1 h with rfl | h
      · simp [show Token.isIdentChar '\n' = false by decide] at hc
      · exact ih h
    · exact List.not_mem_nil

theorem not_mem_operatorTail (L : Lexis) (s : List Char) : '\n' ∉ L.operatorTail s := by
  induction s with
  | nil => exact List.not_mem_nil
  | cons c s ih =>
    rw [operatorTail]
    split
    · next hc =>
      intro h
      rcases List.mem_cons.1 h with rfl | h
      · simp [show Token.isOperatorChar '\n' = false by decide] at hc
      · exact ih h
    · exact List.not_mem_nil

theorem not_mem_takeWhile {p : Char → Bool} (hp : p '\n' = false) (s : List Char) :
    '\n' ∉ s.takeWhile p := by
  intro h
  have := List.all_eq_true.1 List.all_takeWhile _ h
  rw [hp] at this
  cases this

/-- Behind its first character, only a block comment has line feeds, or a line break.  Every other
branch reads characters that pass a test which no line feed passes. -/
theorem Branch.kind_of_newline_mem {c : Char} {rest t : List Char} {k : TokenKind}
    (h : Branch L c rest k t) (ht : '\n' ∈ t) : k = .newline ∨ k = .blockComment := by
  cases h with
  | newline => exact .inl rfl
  | blockComment => exact .inr rfl
  | ws => exact absurd ht (not_mem_takeWhile (by decide) rest)
  | lineComment => exact absurd ht (not_mem_untilBreak rest)
  | string => exact absurd ht (not_mem_stringTail c rest)
  | delimiter => cases ht
  | identifier => exact absurd ht (not_mem_takeWhile (by decide) rest)
  | number => exact absurd ht (not_mem_numberTail rest)
  | operator => exact absurd ht (L.not_mem_operatorTail rest)
  | text => cases ht

/-- **Only line breaks and block comments have line feeds.**  The first character is looked at
apart, as a line feed there makes the lexeme a line break. -/
theorem Reads.kind_of_newline_mem (h : L.Reads l y) (hn : '\n' ∈ l.text) :
    l.kind = .newline ∨ l.kind = .blockComment := by
  have hbreak : isBreak (l.text ++ y) = true → l.kind = .newline := h.kind_of_isBreak
  obtain ⟨c, rest, t, ht, -, hb⟩ := reads_iff_branch.1 h
  rw [ht] at hn hbreak
  rcases List.mem_cons.1 hn with rfl | hn
  · exact .inl (hbreak rfl)
  · exact hb.kind_of_newline_mem hn

theorem Reads.kind_of_isBlank (h : L.Reads l y) {c : Char} {t : List Char} (ht : l.text = c :: t)
    (hc : isBlank c = true) : l.kind = .ws := by
  obtain ⟨d, u, hu, hn⟩ := h
  obtain ⟨rfl, rfl⟩ := List.cons.inj (ht.symm.trans hu)
  have hb : Branch L c (t ++ y) .ws ((t ++ y).takeWhile isBlank) :=
    .ws (Text.isBreak_of_isBlank hc _) hc
  exact (Prod.mk.inj (hn.symm.trans hb.next_eq)).1

theorem Reads.isBreak_of_newline (h : L.Reads l y) (hk : l.kind = .newline) :
    isBreak (l.text ++ y) = true := by
  rcases h.text_of_newline hk with ht | ht <;> rw [ht] <;> rfl

end Lexis

end SmartEnter
