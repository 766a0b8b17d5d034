/-
# Lexemes and line feeds with a carriage return in front

If every line feed of a text gets a carriage return in front of it, the text is still read as the
same lexemes, each with the carriage returns of its own line feeds (`Reads.addReturns`).  There is
one exception.  A string that ends with a backslash at the end of its line takes the next character
with it, unless it is a line feed; so it takes the carriage return, and the line feed is left over
as a line break of one character.

Either way the lexemes that are no line breaks start where they did, as far as places move at all.
So the outline of the text is the outline from before, with its places moved (`outline_addReturns`).

The parts of a lexeme are gone through one by one.  Those that end with their line, or before, are
what they were, since a carriage return ends a line only with the line feed behind it.  A block
comment gets returns of its own, and still ends with its closer, which has no part of a break in it
(`WithinLines`).
-/
import SmartEnter.Proofs.Text.Returns
import SmartEnter.Proofs.Token.LineFeeds
import SmartEnter.Proofs.Token.Layout
import SmartEnter.Proofs.Token.Outline

namespace SmartEnter

open Lexeme (spell)
open Text (isBlank isBreak addReturns addReturns_cons_of_ne addReturns_eq_self returned)

namespace Lexis

variable {L : Lexis} {s rest : List Char} {c : Char}

/-- No comment opens or closes across the end of a line: neither markers nor closers have a line
feed or a carriage return in them. -/
structure WithinLines (L : Lexis) : Prop extends Regular L where
  closer : ∀ m q, L.blockComment = some (m, q) → '\n' ∉ q ∧ '\r' ∉ q

/-! ## 1. The parts of lexemes

Each function that cuts a part off a text, applied to the text with carriage returns.  All but one
give what they gave, with the carriage returns of its own line feeds. -/

theorem startsLineComment_addReturns (hL : L.Regular) (s : List Char) :
    L.startsLineComment (addReturns s) = L.startsLineComment s := by
  rw [Bool.eq_iff_iff, startsLineComment_iff, startsLineComment_iff]
  constructor
  · rintro ⟨m, hm, hp⟩
    exact ⟨m, hm, (Text.prefix_addReturns_iff (hL.inLine m (mem_markers_of_line hm))).1 hp⟩
  · rintro ⟨m, hm, hp⟩
    exact ⟨m, hm, (Text.prefix_addReturns_iff (hL.inLine m (mem_markers_of_line hm))).2 hp⟩

theorem startsBlockComment_addReturns (hL : L.Regular) (s : List Char) :
    L.startsBlockComment (addReturns s) = L.startsBlockComment s := by
  rw [Bool.eq_iff_iff, startsBlockComment_iff, startsBlockComment_iff]
  constructor
  · rintro ⟨m, q, hm, hp⟩
    exact ⟨m, q, hm, (Text.prefix_addReturns_iff (hL.inLine m (mem_markers_of_block hm))).1 hp⟩
  · rintro ⟨m, q, hm, hp⟩
    exact ⟨m, q, hm, (Text.prefix_addReturns_iff (hL.inLine m (mem_markers_of_block hm))).2 hp⟩

theorem numberTail_addReturns (s : List Char) : numberTail (addReturns s) = numberTail s := by
  induction s with
  | nil => rfl
  | cons c s ih =>
    by_cases h : c = '\n'
    · subst h
      rfl
    · rw [addReturns_cons_of_ne h, numberTail, numberTail,
        Text.any_head?_addReturns (by decide) (by decide), ih]

theorem operatorTail_addReturns (hL : L.Regular) (s : List Char) :
    L.operatorTail (addReturns s) = L.operatorTail s := by
  induction s with
  | nil => rfl
  | cons c s ih =>
    by_cases h : c = '\n'
    · subst h
      rfl
    · have hline := startsLineComment_addReturns hL (c :: s)
      have hblock := startsBlockComment_addReturns hL (c :: s)
      rw [addReturns_cons_of_ne h] at hline hblock ⊢
      rw [operatorTail, operatorTail, hline, hblock, ih]

theorem throughCloser_cons_of_ne {q : List Char} {d : Char} (hd : d ∉ q) (hq : q ≠ [])
    (s : List Char) : throughCloser q (d :: s) = d :: throughCloser q s := by
  rw [throughCloser, if_neg]
  intro hp
  cases q with
  | nil => exact hq rfl
  | cons e q =>
    obtain ⟨rfl, -⟩ := List.cons_prefix_cons.1 (List.isPrefixOf_iff_prefix.1 hp)
    exact hd List.mem_cons_self

theorem throughCloser_addReturns {q : List Char} (hq : '\n' ∉ q ∧ '\r' ∉ q) (s : List Char) :
    throughCloser q (addReturns s) = addReturns (throughCloser q s) := by
  by_cases hne : q = []
  · subst hne
    cases s with
    | nil => rfl
    | cons c s =>
      rw [addReturns]
      split <;> rfl
  · induction s with
    | nil => rfl
    | cons c s ih =>
      by_cases h : c = '\n'
      · subst h
        rw [Text.addReturns_newline, throughCloser_cons_of_ne hq.2 hne,
          throughCloser_cons_of_ne hq.1 hne, throughCloser_cons_of_ne hq.1 hne, ih,
          Text.addReturns_newline]
      · have hp : q.isPrefixOf (c :: addReturns s) = q.isPrefixOf (c :: s) := by
          have := Text.prefix_addReturns_iff (s := c :: s) hq
          rw [addReturns_cons_of_ne h] at this
          rwa [Bool.eq_iff_iff, List.isPrefixOf_iff_prefix, List.isPrefixOf_iff_prefix]
        rw [addReturns_cons_of_ne h, throughCloser, throughCloser, hp, ih]
        split
        · rw [addReturns_eq_self hq.1]
        · rw [addReturns_cons_of_ne h]

/-- A string is read as before, unless a backslash at the end of its line takes the carriage
return. -/
theorem stringTail_addReturns (q : Char) (hs : '\r' ∉ s) :
    stringTail q (addReturns s) = stringTail q s ∨
      ∃ y, s = stringTail q s ++ '\n' :: y ∧
        stringTail q (addReturns s) = stringTail q s ++ ['\r'] := by
  fun_induction stringTail q s with
  | case1 => exact .inl rfl
  | case2 rest =>
    refine .inr ⟨rest, rfl, ?_⟩
    simp [addReturns_cons_of_ne, stringTail, isBreak]
  | case3 d rest hd ih =>
    have hr : '\r' ≠ d := fun h => hs (by rw [h]; simp)
    rw [addReturns_cons_of_ne (by decide), addReturns_cons_of_ne hd, stringTail, if_neg hd]
    rcases ih (fun h => hs (by simp [h])) with h | ⟨y, hy, h⟩
    · exact .inl (by rw [h])
    · refine .inr ⟨y, ?_, by rw [h]; rfl⟩
      rw [List.cons_append, List.cons_append, ← hy]
  | case4 c rest hesc hb =>
    left
    have hb' := Text.isBreak_addReturns hs
    rw [hb] at hb'
    have hu := untilBreak_eq_nil_iff.2 (.inr hb')
    exact stringTail_eq_nil_iff.2 hu
  | case5 rest hesc hb =>
    left
    have hn : q ≠ '\n' := by
      rintro rfl
      exact hb rfl
    have hb' := Text.isBreak_addReturns hs
    rw [addReturns_cons_of_ne hn] at hb' ⊢
    by_cases hq : q = '\\'
    · subst hq
      cases rest with
      | nil => exact stringTail_backslash (.inl rfl)
      | cons d rest => exact absurd rfl (hesc d rest rfl)
    · rw [stringTail_cons_of_ne hq, hb', if_neg hb, if_pos rfl]
  | case6 c rest hesc hb hq ih =>
    have hn : c ≠ '\n' := by
      rintro rfl
      exact hb rfl
    have hb' := Text.isBreak_addReturns hs
    rw [addReturns_cons_of_ne hn] at hb' ⊢
    by_cases hc : c = '\\'
    · subst hc
      cases rest with
      | nil => exact .inl (stringTail_backslash (.inl rfl))
      | cons d rest => exact absurd rfl (hesc d rest rfl)
    · rw [stringTail_cons_of_ne hc, hb', if_neg hb, if_neg hq]
      rcases ih (fun h => hs (List.mem_cons_of_mem c h)) with h | ⟨y, hy, h⟩
      · exact .inl (by rw [h])
      · exact .inr ⟨y, by rw [List.cons_append, ← hy], by rw [h, List.cons_append]⟩

/-! ## 2. One lexeme

The branch that reads a lexeme is the same in both texts, because its condition looks at no more
than markers and the first characters. -/

theorem ne_newline_of_isBreak (hb : isBreak (c :: rest) = false) : c ≠ '\n' := by
  rintro rfl
  cases hb

theorem StartsCode.addReturns (hL : L.Regular) (h : L.StartsCode c rest)
    (hcr : '\r' ∉ c :: rest) : L.StartsCode c (Text.addReturns rest) := by
  have hn := ne_newline_of_isBreak h.noBreak
  have hb := Text.isBreak_addReturns hcr
  have hl := startsLineComment_addReturns hL (c :: rest)
  have ho := startsBlockComment_addReturns hL (c :: rest)
  rw [addReturns_cons_of_ne hn] at hb hl ho
  exact ⟨hb.trans h.noBreak, h.noBlank, hl.trans h.noLineComment, ho.trans h.noBlockComment⟩

theorem StartsWord.addReturns (hL : L.Regular) (h : L.StartsWord c rest)
    (hcr : '\r' ∉ c :: rest) : L.StartsWord c (Text.addReturns rest) :=
  ⟨h.toStartsCode.addReturns hL hcr, h.noQuote, h.noDelimiter⟩

theorem blockCommentText_addReturns (hL : L.WithinLines) (h : L.startsBlockComment s = true) :
    L.blockCommentText (addReturns s) = addReturns (L.blockCommentText s) := by
  obtain ⟨m, q, hm, t, rfl⟩ := startsBlockComment_iff.1 h
  rw [blockCommentText_append hm, Text.addReturns_append, Text.addReturns_append,
    addReturns_eq_self (hL.inLine m (mem_markers_of_block hm)).1, blockCommentText_append hm,
    throughCloser_addReturns (hL.closer m q hm)]

/-- A text that opens a block comment starts with what is read of it, and that is not empty. -/
theorem blockCommentText_eq_cons (hL : L.Regular) (h : L.startsBlockComment (c :: rest) = true) :
    L.blockCommentText (c :: rest) = c :: (L.blockCommentText (c :: rest)).tail := by
  obtain ⟨m, q, t, hm, hs, htext⟩ := exists_blockCommentText hL h
  rw [htext, hs, blockCommentText_append hm]

section Branches

variable {t y : List Char} {k : TokenKind}

/-- A lexeme without line feeds stays as it is, if the branch that reads it is taken in the text
with carriage returns, too. -/
theorem Branch.reads_addReturns (hbranch : Branch L c (addReturns rest) k t)
    (hb : isBreak (c :: rest) = false) (ht : '\n' ∉ t) (hr : rest = t ++ y) :
    L.Reads ⟨k, addReturns (c :: t)⟩ (addReturns y) := by
  have hc := ne_newline_of_isBreak hb
  have hrest : addReturns rest = t ++ addReturns y := by
    rw [hr, Text.addReturns_append, addReturns_eq_self ht]
  exact reads_iff_branch.2 ⟨c, _, t, addReturns_eq_self (by simp [ht, hc.symm]), hrest, hbranch⟩

/-- A block comment has the carriage returns of its own line feeds. -/
theorem reads_blockComment_addReturns (hL : L.WithinLines) (hb : isBreak (c :: rest) = false)
    (hw : isBlank c = false) (hl : L.startsLineComment (c :: rest) = false)
    (ho : L.startsBlockComment (c :: rest) = true) (hcr : '\r' ∉ c :: rest)
    (hr : rest = (L.blockCommentText (c :: rest)).tail ++ y) :
    L.Reads ⟨.blockComment, addReturns (c :: (L.blockCommentText (c :: rest)).tail)⟩
      (addReturns y) := by
  have hR := hL.toRegular
  have hc := ne_newline_of_isBreak hb
  have hbreak := Text.isBreak_addReturns hcr
  have hline := startsLineComment_addReturns hR (c :: rest)
  have hblock := startsBlockComment_addReturns hR (c :: rest)
  have htext := blockCommentText_addReturns hL ho
  rw [addReturns_cons_of_ne hc] at hbreak hline hblock htext
  rw [blockCommentText_eq_cons hR ho, addReturns_cons_of_ne hc] at htext
  have hrest := congrArg addReturns hr
  rw [Text.addReturns_append] at hrest
  refine reads_iff_branch.2 ⟨c, _, _, addReturns_cons_of_ne hc _, hrest, ?_⟩
  exact (Branch.blockComment (hbreak.trans hb) hw (hline.trans hl) (hblock.trans ho)).congr
    (by rw [htext, List.tail_cons])

/-- A string stays as it is, or it takes the carriage return of the line feed behind it. -/
theorem reads_string_addReturns (hL : L.Regular) (h : L.StartsCode c rest) (hq : c ∈ L.quotes)
    (hcr : '\r' ∉ c :: rest) (hr : rest = stringTail c rest ++ y) :
    L.Reads ⟨.string, addReturns (c :: stringTail c rest)⟩ (addReturns y) ∨
      ∃ y', y = '\n' :: y' ∧
        L.Reads ⟨.string, c :: stringTail c rest ++ ['\r']⟩ ('\n' :: addReturns y') := by
  have hbranch := Branch.string (h.addReturns hL hcr) hq
  have hmem := not_mem_stringTail c rest
  rcases stringTail_addReturns c (s := rest) (fun h => hcr (List.mem_cons_of_mem c h)) with
    heq | ⟨y', hy', heq⟩
  · exact .inl ((hbranch.congr heq).reads_addReturns h.noBreak hmem hr)
  · obtain rfl : y = '\n' :: y' := List.append_cancel_left (hr.symm.trans hy')
    have hrest := congrArg addReturns hr
    rw [Text.addReturns_append, addReturns_eq_self hmem, Text.addReturns_newline,
      List.append_cons] at hrest
    exact .inr ⟨y', rfl, reads_iff_branch.2 ⟨c, _, _, rfl, hrest, hbranch.congr heq⟩⟩

end Branches

/-- **A lexeme is read as before**, with the carriage returns of its line feeds.  Only a string
that ends with a backslash takes a carriage return that is not its own. -/
theorem Reads.addReturns (hL : L.WithinLines) {l : Lexeme} {y : List Char} (hread : L.Reads l y)
    (hcr : '\r' ∉ l.text ++ y) :
    L.Reads ⟨l.kind, Text.addReturns l.text⟩ (Text.addReturns y) ∨
      l.kind = .string ∧ ∃ y', y = '\n' :: y' ∧
        L.Reads ⟨.string, l.text ++ ['\r']⟩ ('\n' :: Text.addReturns y') := by
  obtain ⟨k, w⟩ := l
  obtain ⟨c, rest, t, rfl, hr, hb⟩ := reads_iff_branch.1 hread
  have hR := hL.toRegular
  rw [List.cons_append, ← hr] at hcr
  have hbreak (hb : isBreak (c :: rest) = false) :
      isBreak (c :: Text.addReturns rest) = false := by
    rw [← addReturns_cons_of_ne (ne_newline_of_isBreak hb), Text.isBreak_addReturns hcr, hb]
  cases hb with
  | newline hb =>
    left
    have hc : c = '\n' := by
      refine (Text.isBreak_cons_iff.1 hb).resolve_right fun h => hcr ?_
      rw [h.1]
      exact List.mem_cons_self
    subst hc
    have hbr : Branch L '\r' ('\n' :: Text.addReturns y) .newline ['\n'] := .newline rfl
    exact reads_iff_branch.2 ⟨'\r', _, ['\n'], rfl, rfl, hbr⟩
  | ws hb hw =>
    have htail := Text.takeWhile_addReturns (p := isBlank) (by decide) (by decide) rest
    exact .inl (((Branch.ws (hbreak hb) hw).congr htail).reads_addReturns hb
      (not_mem_takeWhile (by decide) rest) hr)
  | lineComment hb hw hl =>
    have hline := startsLineComment_addReturns hR (c :: rest)
    rw [addReturns_cons_of_ne (ne_newline_of_isBreak hb), hl] at hline
    have htail := Text.untilBreak_addReturns fun h => hcr (List.mem_cons_of_mem c h)
    exact .inl (((Branch.lineComment (hbreak hb) hw hline).congr htail).reads_addReturns hb
      (not_mem_untilBreak rest) hr)
  | blockComment hb hw hl ho => exact .inl (reads_blockComment_addReturns hL hb hw hl ho hcr hr)
  | string hst hq => exact (reads_string_addReturns hR hst hq hcr hr).imp_right (⟨rfl, ·⟩)
  | delimiter hst hq hd =>
    exact .inl ((Branch.delimiter (hst.addReturns hR hcr) hq hd).reads_addReturns hst.noBreak
      List.not_mem_nil hr)
  | identifier hst hi =>
    have htail := Text.takeWhile_addReturns (p := Token.isIdentChar) (by decide) (by decide) rest
    exact .inl (((Branch.identifier (hst.addReturns hR hcr) hi).congr htail).reads_addReturns
      hst.noBreak (not_mem_takeWhile (by decide) rest) hr)
  | number hst hi hn =>
    exact .inl (((Branch.number (hst.addReturns hR hcr) hi hn).congr
      (numberTail_addReturns rest)).reads_addReturns hst.noBreak (not_mem_numberTail rest) hr)
  | operator hst hi hn ho =>
    exact .inl (((Branch.operator (hst.addReturns hR hcr) hi hn ho).congr
      (operatorTail_addReturns hR rest)).reads_addReturns hst.noBreak
        (not_mem_operatorTail L rest) hr)
  | text hst hi hn ho =>
    exact .inl ((Branch.text (hst.addReturns hR hcr) hi hn ho).reads_addReturns hst.noBreak
      List.not_mem_nil hr)

/-! ## 3. The outline

The outline leaves out line breaks, so it is of no concern that a break may come to be one character
or two.  Places are moved by the carriage returns before them. -/

variable {blanks : List TokenKind}

/-- The mark of a lexeme moves with the place where the lexeme starts.  Its kind is the same, and
its length has no part in the mark. -/
theorem outline_singleton_addReturns {l m : Lexeme} (hk : m.kind = l.kind) (u s : List Char) :
    Lexeme.outline blanks (addReturns u).length [m] =
      (Lexeme.outline blanks u.length [l]).map (Token.Mark.move (returned (u ++ s))) := by
  by_cases h : l.kind ∈ blanks
  · rw [Lexeme.outline_cons_of_mem h, Lexeme.outline_cons_of_mem (by rw [hk]; exact h)]
    rfl
  · rw [Lexeme.outline_cons_of_not_mem h, Lexeme.outline_cons_of_not_mem (by rw [hk]; exact h),
      Lexeme.outline_nil, Lexeme.outline_nil, List.map_singleton, Token.Mark.move,
      Text.returned_length_left, hk]

/-- **The outline stays, with its places moved.**  The induction is on the text; what stands before
it, and moves its places, is `u`. -/
theorem outline_addReturns (hL : L.WithinLines) (hnl : .newline ∈ blanks) (u : List Char)
    (hs : '\r' ∉ s) :
    Lexeme.outline blanks (addReturns u).length (L.lexemes (addReturns s)) =
      (Lexeme.outline blanks u.length (L.lexemes s)).map
        (Token.Mark.move (returned (u ++ s))) := by
  induction hn : s.length using Nat.strongRecOn generalizing s u with
  | ind n ih =>
    cases hls : L.lexemes s with
    | nil =>
      have : s = [] := by rw [← L.spell_lexemes s, hls]; rfl
      subst this
      rw [Text.addReturns_nil, hls]
      rfl
    | cons l ls =>
      obtain ⟨y, rfl, hread, rfl⟩ := lexemes_eq_cons hls
      have hpos := List.length_pos_iff.2 hread.text_ne_nil
      rw [List.length_append] at hn
      have hy : '\r' ∉ y := fun h => hs (List.mem_append_right _ h)
      rw [← List.singleton_append, Lexeme.outline_append, List.map_append]
      rcases hread.addReturns hL hs with hread' | ⟨hk, y', rfl, hread'⟩
      · -- the lexeme has the carriage returns of its own line feeds
        have hrest := ih y.length (by omega) (u ++ l.text) hy rfl
        rw [Text.addReturns_append, List.length_append, List.length_append,
          List.append_assoc] at hrest
        have hmark : Lexeme.outline blanks (addReturns u).length
            [⟨l.kind, addReturns l.text⟩] = _ :=
          outline_singleton_addReturns (l := l) rfl u (l.text ++ y)
        rw [Text.addReturns_append, hread'.lexemes_append, ← List.singleton_append,
          Lexeme.outline_append, hmark]
        simpa using hrest
      · -- the string has the carriage return of the line feed behind it, which is left over
        have htext : '\n' ∉ l.text := by
          intro h
          rcases hread.kind_of_newline_mem h with h | h <;> rw [hk] at h <;> cases h
        have hbreak := L.lexemes_break (.inl rfl)
        simp only [List.singleton_append] at hbreak
        rw [List.length_cons] at hn
        have hrest := ih y'.length (by omega) (u ++ l.text ++ ['\n'])
          (fun h => hy (List.mem_cons_of_mem _ h)) rfl
        have hlex : L.lexemes (addReturns (l.text ++ '\n' :: y')) =
            [⟨.string, l.text ++ ['\r']⟩] ++ ⟨.newline, ['\n']⟩ :: L.lexemes (addReturns y') := by
          rw [Text.addReturns_append, addReturns_eq_self htext, Text.addReturns_newline,
            List.append_cons, hread'.lexemes_append, hbreak]
          rfl
        have hmark : Lexeme.outline blanks (addReturns u).length
            [⟨.string, l.text ++ ['\r']⟩] = _ :=
          outline_singleton_addReturns (l := l) hk.symm u (l.text ++ '\n' :: y')
        have hskip := fun k => Lexeme.outline_cons_of_mem (n := k) (l := ⟨.newline, ['\n']⟩) hnl
        rw [hlex, Lexeme.outline_append, hmark, hbreak, hskip, hskip]
        simpa [addReturns_eq_self htext, Nat.add_assoc] using hrest

end Lexis

end SmartEnter
