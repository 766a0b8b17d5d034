/-
# Replacing the text behind some lexemes

The lexemes of a text stay what they are while the text behind them is replaced, as long as each of
them has the seam it needs (`lexemes_replace`).  Three replacements have it.

* **A cut** (`lexemes_cut`): behind the lexemes the text ends, or a line feed stands there.  No
  lexeme looks at anything behind its own end, except for a carriage return, which would be one line
  break with the line feed, and a block comment that was not closed.
* **Another comment** (`lexemes_comment`): a line comment is replaced by a text that starts with the
  same marker.
* **The same two characters** (`seam_of_take`): a language whose markers are short looks no further
  ahead than that.

A seam is asked of every lexeme before the replaced text, not only of the last one, because a lexeme
may look beyond the next one: a number with a point behind it goes on if there is a digit behind the
point.  For all but the last lexeme the seam follows from how the next one is read
(`Reads.seam_before`).
-/
import SmartEnter.Proofs.Token.Kinds

namespace SmartEnter

open Lexeme (spell)
open Text (isBreak isBreak_cons_iff)

namespace Lexis

variable {L : Lexis} {w x y y' : List Char}

/-- **The first lexemes of a text stay when the text behind them is replaced and their seams hold.**
By induction over the lexemes, each read with the others and the new text behind it. -/
theorem lexemes_replace (hL : L.Regular) {s v : List Char} {A B : List Lexeme}
    (h : L.lexemes s = A ++ B)
    (hs : ∀ A₁ l A₂, A = A₁ ++ l :: A₂ → L.Seam l.text (spell A₂ ++ spell B) (spell A₂ ++ v))
    (hc : ∀ A₁ l, A = A₁ ++ [l] → l.kind = .blockComment → B = [] → v = [] ∨ L.Closes l.text) :
    L.lexemes (spell A ++ v) = A ++ L.lexemes v := by
  induction A generalizing s with
  | nil => rfl
  | cons l A ih =>
    have hr : L.Reads l (spell (A ++ B)) := reads_of_lexemes (A := []) h
    rw [Lexeme.spell_append] at hr
    have hAB : L.lexemes (spell (A ++ B)) = A ++ B := (lexemes_eq_append (A := [l]) h).2
    have hl : L.Reads l (spell A ++ v) := by
      refine hr.of_seam hL (hs [] l A rfl) ?_
      intro hk hnil
      have hnone : A ++ B = [] := by
        rw [← hAB, Lexeme.spell_append, hnil, lexemes_nil]
      obtain ⟨rfl, rfl⟩ := List.append_eq_nil_iff.1 hnone
      exact hc [] l rfl hk rfl
    have hrest : L.lexemes (spell A ++ v) = A ++ L.lexemes v := by
      refine ih hAB ?_ ?_
      · rintro A₁ m A₂ rfl
        exact hs (l :: A₁) m A₂ rfl
      · rintro A₁ m rfl
        exact hc (l :: A₁) m rfl
    rw [Lexeme.spell_cons, List.append_assoc, hl.lexemes_append, hrest, List.cons_append]

/-! ## 1. A cut

Behind the last lexeme there is the end of the text now, or a line feed.  For the lexemes before it,
the text of those behind them stands in between, and it has not changed. -/

/-- The text ends here, or a line feed stands here.  A line is over in both cases, and no lexeme but
a block comment goes on. -/
def EndsHere (v : List Char) : Prop := v = [] ∨ v.head? = some '\n'

/-- What opens no line feed can only open in what stands before the end. -/
theorem prefix_of_endsHere {m u v : List Char} (hv : EndsHere v) (hm : '\n' ∉ m)
    (h : m <+: u ++ v) : m <+: u := by
  induction u generalizing m with
  | nil =>
    cases m with
    | nil => exact List.nil_prefix
    | cons c m =>
      rw [List.nil_append] at h
      rcases hv with rfl | hv
      · cases List.prefix_nil.1 h
      · cases v with
        | nil => cases hv
        | cons d v =>
          obtain rfl := Option.some.inj hv
          obtain rfl := (List.cons_prefix_cons.1 h).1
          exact absurd List.mem_cons_self hm
  | cons d u ih =>
    cases m with
    | nil => exact List.nil_prefix
    | cons c m =>
      obtain ⟨rfl, hmu⟩ := List.cons_prefix_cons.1 h
      exact List.cons_prefix_cons.2 ⟨rfl, ih (fun h' => hm (List.mem_cons_of_mem _ h')) hmu⟩

theorem EndsHere.untilBreak {v : List Char} (h : EndsHere v) : untilBreak v = [] := by
  rw [untilBreak_eq_nil_iff]
  refine h.imp id ?_
  intro hv
  cases v with
  | nil => cases hv
  | cons d v => exact isBreak_cons_iff.2 (.inl (Option.some.inj hv))

theorem EndsHere.numberTail {v : List Char} (h : EndsHere v) : numberTail v = [] := by
  rcases h with rfl | h
  · rfl
  · cases v with
    | nil => cases h
    | cons d v =>
      obtain rfl := Option.some.inj h
      rw [Lexis.numberTail, if_neg]
      simp [show Token.isIdentChar '\n' = false by decide]

theorem EndsHere.operatorTail {v : List Char} (h : EndsHere v) : L.operatorTail v = [] := by
  rcases h with rfl | h
  · rfl
  · cases v with
    | nil => cases h
    | cons d v =>
      obtain rfl := Option.some.inj h
      rw [Lexis.operatorTail, if_neg]
      simp [show Token.isOperatorChar '\n' = false by decide]

/-- The last lexeme before a cut needs no more than that no carriage return is at its end. -/
theorem seam_end (hL : L.Regular) {v : List Char} (hv : EndsHere v)
    (hr : v ≠ [] → w.getLast? ≠ some '\r') : L.Seam w y v where
  head := hv.imp id .inl
  line _ := hv.untilBreak
  number _ := hv.numberTail
  operator _ := hv.operatorTail
  marker _ _ _ m hm hp :=
    (prefix_of_endsHere hv (hL.inLine m hm).1 hp).trans (List.prefix_append _ _)
  joint hw hv' := by
    have hne : v ≠ [] := by
      rintro rfl
      cases hv'
    exact absurd hw (hr hne)

/-- A lexeme before other text `u` that stays needs only that the same things start there. -/
theorem seam_before (hL : L.Regular) {u v : List Char} (hu : u ≠ []) (hv : EndsHere v)
    (hline : untilBreak (u ++ x) = [] → untilBreak (u ++ v) = [])
    (hop : L.operatorTail (u ++ x) = [] → L.operatorTail (u ++ v) = []) :
    L.Seam w (u ++ x) (u ++ v) where
  head := by
    cases u with
    | nil => exact absurd rfl hu
    | cons c u => exact .inr (.inr rfl)
  line := hline
  number h := by
    match u with
    | [] => exact absurd rfl hu
    | [c] =>
      rw [List.singleton_append, Lexis.numberTail] at h ⊢
      split at h
      · cases h
      · next hc =>
        rw [if_neg]
        have hd : (v.head?.any Unicode.isDigit) = false := by
          rcases hv with rfl | hv
          · rfl
          · rw [hv]
            decide
        rw [hd, Bool.and_false, Bool.or_false]
        exact fun hi => hc (by rw [hi, Bool.true_or])
    | c :: d :: u =>
      rw [List.cons_append, Lexis.numberTail] at h ⊢
      split at h
      · cases h
      · next hc => exact if_neg hc
  operator := hop
  marker z _ _ m hm hp := by
    rw [← List.append_assoc] at hp ⊢
    exact (prefix_of_endsHere hv (hL.inLine m hm).1 hp).trans (List.prefix_append _ _)
  joint _ h := by
    cases u with
    | nil => exact absurd rfl hu
    | cons c u => exact h

/-- What a lexeme owes to the lexemes right behind it, if only text behind those is replaced. -/
theorem Reads.seam_before (hL : L.Regular) {m : Lexeme} {u v : List Char} (h : L.Reads m (u ++ x))
    (hv : EndsHere v) : L.Seam w (m.text ++ u ++ x) (m.text ++ u ++ v) := by
  refine Lexis.seam_before hL ?_ hv ?_ ?_
  · exact List.append_ne_nil_of_left_ne_nil h.text_ne_nil u
  · rw [List.append_assoc, List.append_assoc]
    exact fun hu => h.untilBreak_eq_nil hu (u ++ v)
  · rw [List.append_assoc, List.append_assoc]
    exact fun ho => h.operatorTail_eq_nil hL ho (u ++ v)

/-- **The first lexemes of a text stay when the text is cut behind them**, unless a line feed is put
there, and a carriage return is at their end or a block comment that was not closed is the last of
them. -/
theorem lexemes_cut (hL : L.Regular) {s v : List Char} {A B : List Lexeme}
    (h : L.lexemes s = A ++ B) (hv : EndsHere v)
    (hr : v ≠ [] → (spell A).getLast? ≠ some '\r')
    (hc : ∀ A₁ l, A = A₁ ++ [l] → l.kind = .blockComment → B = [] → v = [] ∨ L.Closes l.text) :
    L.lexemes (spell A ++ v) = A ++ L.lexemes v := by
  refine lexemes_replace hL h ?_ hc
  rintro A₁ l A₂ rfl
  cases A₂ with
  | nil =>
    refine seam_end hL hv fun hne he => hr hne ?_
    rw [Lexeme.spell_append, Lexeme.spell_cons, Lexeme.spell_nil, List.append_nil,
      List.getLast?_append, he]
    rfl
  | cons m A₂ =>
    have hm : L.Reads m (spell A₂ ++ spell B) := by
      rw [← Lexeme.spell_append]
      refine reads_of_lexemes (A := A₁ ++ [l]) (s := s) ?_
      rw [h]
      simp
    exact hm.seam_before hL hv

/-! ## 2. Another comment

The comment is cut short and its marker stays, so what the lexemes before it see is a comment that
starts at the same place. -/

/-- **The lexemes before a line comment stay when the comment is cut short**, as long as its marker
stays: where the comment starts, a comment still starts. -/
theorem lexemes_comment (hL : L.Regular) {s p q v : List Char} {A B : List Lexeme} {l : Lexeme}
    (h : L.lexemes s = A ++ l :: B) (hk : l.kind = .lineComment) (hpq : l.text = p ++ q)
    (hp : p ≠ []) (hs : L.startsLineComment p = true) (hv : EndsHere v) :
    L.lexemes (spell A ++ (p ++ v)) = A ++ L.lexemes (p ++ v) := by
  have hl : L.Reads l (spell B) := reads_of_lexemes h
  refine lexemes_replace hL h ?_ nofun
  rintro A₁ k A₂ rfl
  rw [Lexeme.spell_cons, hpq, List.append_assoc p q]
  cases A₂ with
  | nil =>
    rw [Lexeme.spell_nil, List.nil_append, List.nil_append]
    refine seam_before hL hp hv ?_ ?_
    · intro hu
      rw [← List.append_assoc, ← hpq] at hu
      have hu' := untilBreak_append (hl.unbroken_of_lineComment hk).1
      rw [hu, hpq] at hu'
      exact absurd (List.append_eq_nil_iff.1 (List.append_eq_nil_iff.1 hu'.symm).1).1 hp
    · intro _
      obtain ⟨m, hm, hmp⟩ := startsLineComment_iff.1 hs
      cases p with
      | nil => exact absurd rfl hp
      | cons c p =>
        exact operatorTail_eq_nil_iff.2 fun _ =>
          .inl (startsLineComment_iff.2 ⟨m, hm, hmp.trans (List.prefix_append (c :: p) v)⟩)
  | cons m A₂ =>
    have hm : L.Reads m (spell A₂ ++ p ++ (q ++ spell B)) := by
      have hr : L.Reads m (spell (A₂ ++ l :: B)) :=
        reads_of_lexemes (A := A₁ ++ [k]) (s := s) (by rw [h]; simp)
      simpa [hpq] using hr
    have hseam := hm.seam_before (w := k.text) hL hv
    simpa using hseam

/-! ## 3. The same two characters

If no marker is longer than two characters, no question about the text behind a lexeme needs more
than two of its characters for an answer. -/

/-- The markers of comments have at most two characters.  All built-in languages have short
markers. -/
structure Short (L : Lexis) : Prop extends Regular L where
  length_le : ∀ m ∈ L.markers, m.length ≤ 2

theorem prefix_of_take {m s s' : List Char} {n : Nat} (hm : m.length ≤ n)
    (h : s.take n = s'.take n) (hp : m <+: s) : m <+: s' := by
  have : m <+: s'.take n := h ▸ List.prefix_take_iff.2 ⟨hp, hm⟩
  exact (List.prefix_take_iff.1 this).1

/-- Whatever stands in front, two texts with the same beginning have the same beginning. -/
theorem take_append_congr {n : Nat} {y y' : List Char} (h : y.take n = y'.take n) (z : List Char) :
    (z ++ y).take n = (z ++ y').take n := by
  have hk : y.take (n - z.length) = y'.take (n - z.length) := by
    have hle : min (n - z.length) n = n - z.length := Nat.min_eq_left (Nat.sub_le _ _)
    calc y.take (n - z.length)
        = (y.take n).take (n - z.length) := by rw [List.take_take, hle]
      _ = (y'.take n).take (n - z.length) := by rw [h]
      _ = y'.take (n - z.length) := by rw [List.take_take, hle]
  rw [List.take_append, List.take_append, hk]

theorem eq_or_of_take_two {y y' : List Char} (h : y.take 2 = y'.take 2) :
    y = y' ∨ ∃ c d r r', y = c :: d :: r ∧ y' = c :: d :: r' := by
  rcases y with _ | ⟨c, _ | ⟨d, r⟩⟩ <;> rcases y' with _ | ⟨c', _ | ⟨d', r'⟩⟩ <;> simp_all

/-- A lexeme of a language with short markers looks two characters ahead. -/
theorem seam_of_take (hL : L.Short) (h : y.take 2 = y'.take 2) : L.Seam w y y' := by
  rcases eq_or_of_take_two h with rfl | ⟨c, d, r, r', rfl, rfl⟩
  · exact ⟨.inr (.inr rfl), id, id, id, fun _ _ _ _ _ hp => hp, fun _ hn => hn⟩
  · refine ⟨.inr (.inr rfl), ?_, ?_, ?_, ?_, fun _ hn => hn⟩
    · rw [untilBreak_eq_nil_iff, untilBreak_eq_nil_iff, isBreak_cons_iff, isBreak_cons_iff]
      simp only [List.cons_ne_nil, false_or, List.head?_cons, imp_self]
    · intro hn
      rw [numberTail] at hn ⊢
      split at hn
      · cases hn
      · next hc => exact if_neg hc
    · rw [operatorTail_eq_nil_iff, operatorTail_eq_nil_iff, startsLineComment_iff,
        startsLineComment_iff, startsBlockComment_iff, startsBlockComment_iff]
      intro ho hc
      refine (ho hc).imp ?_ ?_
      · rintro ⟨m, hm, hp⟩
        exact ⟨m, hm, prefix_of_take (hL.length_le m (mem_markers_of_line hm)) h hp⟩
      · rintro ⟨m, closer, hm, hp⟩
        exact ⟨m, closer, hm, prefix_of_take (hL.length_le m (mem_markers_of_block hm)) h hp⟩
    · intro z _ _ m hm hp
      exact prefix_of_take (hL.length_le m hm) (take_append_congr h.symm z) hp

/-- **The first lexemes of a text stay when the text behind them is replaced from its third
character on**, in a language with short markers. -/
theorem lexemes_of_take (hL : L.Short) {s v : List Char} {A B : List Lexeme}
    (h : L.lexemes s = A ++ B) (hB : B ≠ []) (ht : (spell B).take 2 = v.take 2) :
    L.lexemes (spell A ++ v) = A ++ L.lexemes v :=
  lexemes_replace hL.toRegular h (fun _ _ A₂ _ => seam_of_take hL (take_append_congr ht (spell A₂)))
    fun _ _ _ _ h => absurd h hB

end Lexis

end SmartEnter
