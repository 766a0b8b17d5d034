/-
# Which token is found before an offset

The search for the last token before an offset counts tokens and walks back over a reversed list.
Said of the lexemes of the text it is simpler: the lexemes up to the one that covers the offset end
with the token that is found and with blanks behind it, and the token starts no earlier than the
limit (`nearest?_tokens_eq_some_iff`).

An offset is covered by one lexeme only (`covering_unique`).  So a proof may take the covering
lexeme from where it has it, and need not compare it with the one that the search counts up to.
-/
import SmartEnter.Token.Search
import SmartEnter.Proofs.Token.Stream
import Mathlib.Data.List.Induction

namespace SmartEnter

open Lexeme (spell)

/-- A lexeme that occurs among others and a last one is the last one, or occurs among the others. -/
theorem Lexeme.eq_last_or_of_concat_eq {A A' W : List Lexeme} {l k : Lexeme}
    (h : A ++ [l] = A' ++ k :: W) :
    (W = [] ∧ A = A' ∧ l = k) ∨ ∃ W', W = W' ++ [l] ∧ A = A' ++ k :: W' := by
  rcases List.eq_nil_or_concat W with rfl | ⟨W, w, rfl⟩
  · obtain ⟨hA, hl⟩ := List.append_inj' h rfl
    exact .inl ⟨rfl, hA, (List.cons.inj hl).1⟩
  · rw [List.concat_eq_append, ← List.cons_append, ← List.append_assoc] at h
    obtain ⟨hA, hl⟩ := List.append_inj' h rfl
    rw [(List.cons.inj hl).1]
    exact .inr ⟨W, List.concat_eq_append, hA⟩

/-- Of two ways to cut a list around a lexeme, the one that covers the same offset is the same. -/
theorem Lexeme.covering_unique {A A' B B' : List Lexeme} {l l' : Lexeme} {n : Nat}
    (h : A ++ l :: B = A' ++ l' :: B') (hA : (spell A).length < n)
    (hl : n ≤ (spell (A ++ [l])).length) (hA' : (spell A').length < n)
    (hl' : n ≤ (spell (A' ++ [l'])).length) : A = A' ∧ l = l' ∧ B = B' := by
  induction A generalizing A' n with
  | nil =>
    cases A' with
    | nil =>
      obtain ⟨rfl, rfl⟩ := List.cons.inj h
      exact ⟨rfl, rfl, rfl⟩
    | cons m A' =>
      obtain ⟨rfl, -⟩ := List.cons.inj h
      simp only [List.nil_append, spell_cons, spell_nil, List.append_nil,
        List.length_append] at hl hA'
      omega
  | cons k A ih =>
    cases A' with
    | nil =>
      obtain ⟨rfl, -⟩ := List.cons.inj h
      simp only [List.nil_append, spell_cons, spell_nil, List.append_nil,
        List.length_append] at hl' hA
      omega
    | cons m A' =>
      obtain ⟨rfl, htail⟩ := List.cons.inj h
      simp only [List.cons_append, spell_cons, List.length_append] at hA hl hA' hl'
      obtain ⟨rfl, hrest⟩ :=
        ih htail (n := n - k.text.length) (by omega) (by omega) (by omega) (by omega)
      exact ⟨rfl, hrest⟩

/-- If the tokens before have started at an offset and those behind have not, the index of the
offset is that of the token between. -/
theorem Token.indexAt_append {A B : List Token} {t : Token} {offset : Int}
    (hA : ∀ u ∈ A, (u.start.offset : Int) ≤ offset) (ht : (t.start.offset : Int) ≤ offset)
    (hB : ∀ u ∈ B, offset < u.start.offset) : indexAt (A ++ t :: B) offset = A.length := by
  have hbefore : A.countP (fun u => (u.start.offset : Int) ≤ offset) = A.length :=
    List.countP_eq_length.2 fun u hu => decide_eq_true (hA u hu)
  have hbehind : B.countP (fun u => (u.start.offset : Int) ≤ offset) = 0 :=
    List.countP_eq_zero.2 fun u hu => by simpa using hB u hu
  rw [indexAt, List.countP_append, hbefore, List.countP_cons, hbehind, if_pos (decide_eq_true ht)]
  omega

namespace Lexis

variable {L : Lexis} {blanks : List TokenKind} {lowest : Int} {t : Token}

/-- Walking back over the tokens finds the last one that is not blank, if it starts at the limit or
behind it. -/
theorem nearestOf_placed_eq_some_iff {ls : List Lexeme} :
    Token.nearestOf blanks lowest (placed .start ls).reverse = some t ↔
      ∃ A k W, ls = A ++ k :: W ∧ t = k.behind A ∧
        k.kind ∉ blanks ∧ (∀ w ∈ W, w.kind ∈ blanks) ∧ lowest ≤ (spell A).length := by
  -- the search goes backwards, so the induction takes the last lexeme first
  induction ls using List.reverseRecOn with
  | nil => simp [placed, Token.nearestOf]
  | append_singleton ls l ih =>
    rw [placed_append, List.reverse_append, placed, placed, List.reverse_singleton,
      List.singleton_append, Token.nearestOf, Lexeme.start_placedAt, Lexeme.kind_placedAt,
      Position.offset_start_advance]
    constructor
    · intro h
      split at h
      · cases h
      next hlow =>
      split at h
      · next hk =>
        obtain ⟨A, k, W, rfl, rfl, hkind, hW, hA⟩ := ih.1 h
        refine ⟨A, k, W ++ [l], by simp, rfl, hkind, ?_, hA⟩
        intro w hw
        rcases List.mem_append.1 hw with hw | hw
        · exact hW w hw
        · rw [List.mem_singleton.1 hw]
          exact hk
      · next hk =>
        obtain rfl := Option.some.inj h
        exact ⟨ls, l, [], rfl, rfl, hk, List.forall_mem_nil _, Int.not_lt.1 hlow⟩
    · rintro ⟨A, k, W, hls, rfl, hkind, hW, hA⟩
      rcases Lexeme.eq_last_or_of_concat_eq hls with ⟨rfl, rfl, rfl⟩ | ⟨W, rfl, rfl⟩
      · rw [if_neg (Int.not_lt.2 hA), if_neg hkind]
        rfl
      · have hlow : ¬((spell (A ++ k :: W)).length : Int) < lowest := by
          rw [Lexeme.spell_append, List.length_append]
          omega
        rw [if_neg hlow, if_pos (hW l (by simp))]
        exact ih.2 ⟨A, k, W, rfl, rfl, hkind, fun w hw => hW w (by simp [hw]), hA⟩

variable {s : List Char} {n : Nat} {A B : List Lexeme} {l : Lexeme}

theorem tokens_eq_append (h : L.lexemes s = A ++ l :: B) :
    L.tokens s = placed .start (A ++ [l]) ++
      (placed (Position.start.advance (spell (A ++ [l]))) B ++ [endMark s]) := by
  rw [tokens_eq, h, ← List.append_assoc, ← placed_append, List.append_assoc, List.singleton_append]

/-- The tokens that start before an offset are those of the lexemes up to the one that covers it, so
their number is the index of that lexeme. -/
theorem indexAt_tokens (h : L.lexemes s = A ++ l :: B) (hA : (spell A).length < n)
    (hl : n ≤ (spell (A ++ [l])).length) :
    Token.indexAt (L.tokens s) ((n : Int) - 1) = A.length := by
  have hs : (spell (A ++ [l])).length ≤ s.length := by
    rw [← L.spell_lexemes s, h, List.append_cons A l B, Lexeme.spell_append (A ++ [l]),
      List.length_append]
    omega
  have hbefore : ∀ u ∈ placed .start A, (u.start.offset : Int) ≤ (n : Int) - 1 := by
    intro u hu
    obtain ⟨A', k, W, rfl, rfl⟩ := mem_placed_iff.1 hu
    rw [Lexeme.spell_append, List.length_append] at hA
    rw [Lexeme.start_placedAt, Position.offset_start_advance]
    omega
  have hstart : ((l.behind A).start.offset : Int) ≤ (n : Int) - 1 := by
    rw [Lexeme.start_behind]
    omega
  have hbehind : ∀ u ∈ placed (Position.start.advance (spell (A ++ [l]))) B ++ [endMark s],
      (n : Int) - 1 < u.start.offset := by
    intro u hu
    rcases List.mem_append.1 hu with hu | hu
    · obtain ⟨A', k, W, -, rfl⟩ := mem_placed_iff.1 hu
      rw [Lexeme.start_placedAt, Position.offset_advance, Position.offset_start_advance]
      omega
    · rw [List.mem_singleton.1 hu, endMark, Position.offset_start_advance]
      omega
  have hcut : L.tokens s = placed .start A ++ l.behind A ::
      (placed (Position.start.advance (spell (A ++ [l]))) B ++ [endMark s]) := by
    rw [tokens_eq_append h, placed_append, List.append_assoc]
    rfl
  rw [hcut, Token.indexAt_append hbefore hstart hbehind, length_placed]

/-- **The token found before an offset** is the last of the lexemes up to the one that covers the
offset that is not blank. -/
theorem nearest?_tokens_eq_some_iff (h : L.lexemes s = A ++ l :: B) (hA : (spell A).length < n)
    (hl : n ≤ (spell (A ++ [l])).length) :
    Token.nearest? (L.tokens s) (Token.indexAt (L.tokens s) ((n : Int) - 1)) lowest blanks =
        some t ↔
      ∃ A' k W, A ++ [l] = A' ++ k :: W ∧ t = k.behind A' ∧
        k.kind ∉ blanks ∧ (∀ w ∈ W, w.kind ∈ blanks) ∧ lowest ≤ (spell A').length := by
  have htake : (L.tokens s).take (A.length + 1) = placed .start (A ++ [l]) := by
    rw [tokens_eq_append h, List.take_left' (by simp)]
  have hlength : A.length + 1 ≤ (L.tokens s).length := by
    rw [tokens_eq_append h, List.length_append, length_placed, List.length_append,
      List.length_singleton]
    omega
  rw [indexAt_tokens h hA hl, Token.nearest?, if_pos ⟨by omega, by omega⟩, Int.toNat_natCast, htake,
    nearestOf_placed_eq_some_iff]

end Lexis

end SmartEnter
