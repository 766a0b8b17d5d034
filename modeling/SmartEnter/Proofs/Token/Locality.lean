/-
# The lexemes of a line do not depend on the lines below

A lexeme is read off the text up to its own end, and little more.  So of two texts that are the same
up to the end of a line, the same lexemes are read up to there, but for the last one, which may go
on below: a line break or a block comment.  That one has the same kind in both, and starts at the
same place (`lexemes_newline_cases`).  Hence the outlines of the two texts are the same up to the
end of the line (`filter_outline_newline`).

At a boundary between lexemes, what stands behind is read as if nothing stood before
(`lexemes_boundary`).  So a line depends on the lines above only by the lexeme that goes over its
start, and in its outline on the lines below not at all.
-/
import SmartEnter.Proofs.Token.LineFeeds
import SmartEnter.Proofs.Token.Cut
import SmartEnter.Proofs.Token.Outline

namespace SmartEnter

open Lexeme (spell outline)
open Text (isBreak isBreak_cons_iff)

namespace Lexis

variable {L : Lexis} {x : List Char}

/-! ## 1. One lexeme

Two texts share `x` and the line feed behind it.  All that a lexeme on `x` asks of the text behind
it is answered before the line feed, or by it. -/

theorem isBreak_newline (hx : x ≠ []) (v v' : List Char) :
    isBreak (x ++ '\n' :: v) = isBreak (x ++ '\n' :: v') := by
  match x with
  | [] => exact absurd rfl hx
  | [c] =>
    rw [Bool.eq_iff_iff, List.singleton_append, List.singleton_append, isBreak_cons_iff,
      isBreak_cons_iff]
    rfl
  | c :: d :: x =>
    rw [Bool.eq_iff_iff]
    simp only [List.cons_append, isBreak_cons_iff, List.head?_cons]

/-- Up to its break, a line is the same whatever stands below; the line feed is there in both texts,
and a carriage return before it, too. -/
theorem untilBreak_newline (x v v' : List Char) :
    untilBreak (x ++ '\n' :: v) = untilBreak (x ++ '\n' :: v') := by
  induction x with
  | nil => rfl
  | cons c x ih =>
    have hb := isBreak_newline (List.cons_ne_nil c x) v v'
    rw [List.cons_append, List.cons_append] at hb ⊢
    rw [untilBreak, untilBreak, hb, ih]

/-- A marker that opens within a line opens whatever stands below. -/
theorem prefix_newline {m : List Char} (hm : '\n' ∉ m) {v : List Char}
    (h : m <+: x ++ '\n' :: v) (v' : List Char) : m <+: x ++ '\n' :: v' :=
  (prefix_of_endsHere (.inr rfl) hm h).trans (List.prefix_append x _)

/-- What stands below the line is of no concern to a lexeme on it. -/
theorem seam_newline (hL : L.Regular) (w x v v' : List Char) :
    L.Seam w (x ++ '\n' :: v) (x ++ '\n' :: v') where
  head := by
    refine .inr (.inr ?_)
    cases x <;> rfl
  line h := by rwa [untilBreak_newline x v' v]
  number h := by
    match x with
    | [] => rfl
    | [c] =>
      rw [List.singleton_append, numberTail] at h ⊢
      split at h
      · cases h
      · next hc => exact if_neg hc
    | c :: d :: x =>
      rw [List.cons_append, numberTail] at h ⊢
      split at h
      · cases h
      · next hc => exact if_neg hc
  operator h := by
    cases x with
    | nil => exact EndsHere.operatorTail (.inr rfl)
    | cons c x =>
      rw [List.cons_append, operatorTail_eq_nil_iff, startsLineComment_iff,
        startsBlockComment_iff] at h ⊢
      intro hc
      refine (h hc).imp ?_ ?_
      · rintro ⟨m, hm, hp⟩
        exact ⟨m, hm, prefix_newline (x := c :: x) (hL.inLine m (mem_markers_of_line hm)).1 hp v'⟩
      · rintro ⟨m, closer, hm, hp⟩
        exact ⟨m, closer, hm,
          prefix_newline (x := c :: x) (hL.inLine m (mem_markers_of_block hm)).1 hp v'⟩
  marker z _ _ m hm hp := by
    rw [← List.append_assoc] at hp ⊢
    exact prefix_newline (hL.inLine m hm).1 hp v
  joint _ h := by
    cases x with
    | nil => rfl
    | cons c x => exact h

/-- A lexeme that ends on the line is read whatever stands below. -/
theorem Reads.newline (hL : L.Regular) {l : Lexeme} {v : List Char}
    (h : L.Reads l (x ++ '\n' :: v)) (v' : List Char) : L.Reads l (x ++ '\n' :: v') :=
  h.of_seam hL (seam_newline hL _ x v v') fun _ hnil => absurd hnil (by simp)

/-- A first part of a text ends on the first line, or has the line feed in it. -/
theorem exists_append_or_newline_mem {v w y : List Char} (h : x ++ '\n' :: v = w ++ y) :
    (∃ z, x = w ++ z ∧ y = z ++ '\n' :: v) ∨ x.length < w.length ∧ '\n' ∈ w := by
  rcases List.append_eq_append_iff.1 h with ⟨z, rfl, hz⟩ | ⟨z, rfl, rfl⟩
  · cases z with
    | nil => exact .inl ⟨[], by simp, hz.symm⟩
    | cons d z =>
      obtain ⟨rfl, -⟩ := List.cons.inj hz
      exact .inr ⟨by simp, by simp⟩
  · exact .inl ⟨z, rfl, rfl⟩

/-- **The first lexeme before the end of a line.**  It ends on the line and is read whatever stands
below; or it goes on behind the line, and has the same kind whatever stands below. -/
theorem lexemes_newline_cases (hL : L.Regular) (hx : x ≠ []) (v v' : List Char) :
    (∃ l z, x = l.text ++ z ∧ L.Reads l (z ++ '\n' :: v) ∧ L.Reads l (z ++ '\n' :: v')) ∨
      ∃ l l' B B', L.lexemes (x ++ '\n' :: v) = l :: B ∧ L.lexemes (x ++ '\n' :: v') = l' :: B' ∧
        l.kind = l'.kind ∧ x.length < l.text.length ∧ x.length < l'.text.length := by
  obtain ⟨l, y, hls, hy, hr⟩ :=
    exists_lexemes_eq_cons (L := L) (List.append_ne_nil_of_left_ne_nil hx ('\n' :: v))
  obtain ⟨l', y', hls', hy', hr'⟩ :=
    exists_lexemes_eq_cons (L := L) (List.append_ne_nil_of_left_ne_nil hx ('\n' :: v'))
  rcases exists_append_or_newline_mem hy with ⟨z, hz, rfl⟩ | ⟨hlong, hmem⟩
  · exact .inl ⟨l, z, hz, hr, hr.newline hL v'⟩
  rcases exists_append_or_newline_mem hy' with ⟨z, hz, rfl⟩ | ⟨hlong', hmem'⟩
  · exact .inl ⟨l', z, hz, hr'.newline hL v, hr'⟩
  -- both are line breaks, or both are block comments
  have hbreak := isBreak_newline hx v v'
  rw [hy, hy'] at hbreak
  refine .inr ⟨l, l', _, _, hls, hls', ?_, hlong, hlong'⟩
  rcases hr.kind_of_newline_mem hmem with hk | hk
  · rw [hk, hr'.kind_of_isBreak (hbreak ▸ hr.isBreak_of_newline hk)]
  · rcases hr'.kind_of_newline_mem hmem' with hk' | hk'
    · rw [hk', hr.kind_of_isBreak (hbreak.symm ▸ hr'.isBreak_of_newline hk')]
    · rw [hk, hk']

/-! ## 2. The outline of a line

By induction over the lexemes of the line.  The last one may be longer in one of the texts, but in
the outline it is a mark where it starts, and what comes behind it lies below the line. -/

variable {blanks : List TokenKind}

/-- **Up to the end of a line, the outline does not depend on what stands below.**  The induction
is on the text up to there, which starts at `n`. -/
theorem filter_outline_newline (hL : L.Regular) (v v' : List Char) {n k : Nat}
    (hk : k ≤ n + x.length) :
    (outline blanks n (L.lexemes (x ++ '\n' :: v))).filter (·.place < k) =
      (outline blanks n (L.lexemes (x ++ '\n' :: v'))).filter (·.place < k) := by
  induction hlen : x.length using Nat.strongRecOn generalizing x n with
  | ind m ih =>
    by_cases hx : x = []
    · subst hx
      rw [Lexeme.filter_outline_eq_nil (by simpa using hk),
        Lexeme.filter_outline_eq_nil (by simpa using hk)]
    rcases lexemes_newline_cases hL hx v v' with
      ⟨l, z, rfl, hr, hr'⟩ | ⟨l, l', B, B', hls, hls', hkind, hlong, hlong'⟩
    · have hpos := List.length_pos_iff.2 hr.text_ne_nil
      rw [List.length_append] at hlen hk
      have hrest := ih z.length (by omega) (n := n + l.text.length) (by omega) rfl
      rw [List.append_assoc, List.append_assoc, hr.lexemes_append, hr'.lexemes_append,
        Lexeme.outline_cons l (L.lexemes (z ++ '\n' :: v)),
        Lexeme.outline_cons l (L.lexemes (z ++ '\n' :: v')), List.filter_append,
        List.filter_append, hrest]
    · -- what stands behind the lexeme stands below the line
      have hnone : ∀ w : List Char, x.length < w.length → ∀ ls,
          (outline blanks (n + w.length) ls).filter (·.place < k) = [] := by
        intro w hw ls
        exact Lexeme.filter_outline_eq_nil (by omega)
      rw [hls, hls', Lexeme.outline_cons l B, Lexeme.outline_cons l' B', List.filter_append,
        List.filter_append, hnone _ hlong, hnone _ hlong', Lexeme.outline_singleton hkind]

/-! ## 3. Boundaries

A boundary is an offset at which a token starts, so it splits the lexemes of the text in those
before and those behind. -/

/-- A token of the text starts at the offset.  The end of the text is one, where the end mark
starts. -/
def IsBoundary (L : Lexis) (s : List Char) (n : Nat) : Prop :=
  ∃ t ∈ L.tokens s, t.start.offset = n

/-- **Behind a boundary the text is read as if nothing stood before.**  The lexer has no state but
its place, so the lexemes of the rest are those of a text of its own. -/
theorem lexemes_boundary {p r : List Char} (h : L.IsBoundary (p ++ r) p.length) :
    ∃ A, L.lexemes (p ++ r) = A ++ L.lexemes r ∧ spell A = p := by
  obtain ⟨A, B, hs, hA⟩ : ∃ A B, L.lexemes (p ++ r) = A ++ B ∧ (spell A).length = p.length := by
    obtain ⟨t, ht, hn⟩ := h
    rcases mem_tokens_iff.1 ht with ⟨A, l, B, hs, rfl⟩ | rfl
    · exact ⟨A, l :: B, hs, by rw [← hn, Lexeme.start_behind]⟩
    · refine ⟨L.lexemes (p ++ r), [], by simp, ?_⟩
      rw [spell_lexemes, ← hn, endMark, Position.offset_start_advance]
  obtain ⟨hpr, hB⟩ := lexemes_eq_append hs
  obtain ⟨hp, hr⟩ := List.append_inj hpr hA.symm
  exact ⟨A, by rw [hs, hr, hB], hp.symm⟩

end Lexis

end SmartEnter
