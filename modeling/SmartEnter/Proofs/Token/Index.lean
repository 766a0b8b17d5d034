/-
# The token at an offset

The index of the token at an offset is counted off the starts of the tokens alone.  Tokens lie side
by side, so it is the index of the only token that covers the offset (`indexAt_of_covers`), and at
the end of the text it is that of the end mark.

No token covers an offset outside the text.  Before the text none starts either, and the index is
-1.  Behind the text the end mark has started, and its index is the answer there too
(`indexAt_tokens_of_le`).

Main statement: the index is that of the covering token, or says that there is none, exactly up to
the end of the text (`findsCovering_iff`).
-/
import SmartEnter.Proofs.Token.Nearest
import SmartEnter.Proofs.Token.Tiling

namespace SmartEnter

open Lexeme (spell)

namespace Token

variable {tokens : List Token} {t : Token} {offset : Int} {length i : Nat}

/-- The offset lies in the token: at its start or behind it, and before its end. -/
def Covers (t : Token) (offset : Int) : Prop := t.start.offset ≤ offset ∧ offset < t.stop.offset

/-- The index of an offset in the tokens of a text: that of the one token that covers it, at the end
of the text that of the end mark, and -1 outside the text. -/
structure FindsCovering (tokens : List Token) (length : Nat) (offset : Int) : Prop where
  inside : 0 ≤ offset → offset < length → ∃ (i : Nat) (t : Token), indexAt tokens offset = i ∧
    tokens[i]? = some t ∧ t.Covers offset ∧
    ∀ (j : Nat) (u : Token), tokens[j]? = some u → u.Covers offset → j = i
  atEnd : offset = length → ∃ (i : Nat) (t : Token), indexAt tokens offset = i ∧
    tokens[i]? = some t ∧ t.kind = .eof
  outside : offset < 0 ∨ length < offset → indexAt tokens offset = -1

/-! ## 1. Tokens in order

The index of an offset is the number of tokens that start there or before, less one. -/

/-- **The index of an offset is that of the token that covers it**, whichever token that is.  All
tokens before it have started, and those behind it start where it stops or later. -/
theorem indexAt_of_covers (hstart : tokens.Pairwise fun t u => t.start.offset < u.start.offset)
    (hstop : tokens.Pairwise fun t u => t.stop.offset ≤ u.start.offset) (hi : tokens[i]? = some t)
    (hcovers : t.Covers offset) : indexAt tokens offset = i := by
  obtain ⟨hlt, rfl⟩ := List.getElem?_eq_some_iff.1 hi
  obtain ⟨hfrom, hto⟩ := hcovers
  have hcut : tokens.take i ++ tokens[i] :: tokens.drop (i + 1) = tokens := by
    rw [← List.drop_eq_getElem_cons hlt, List.take_append_drop]
  rw [← hcut] at hstart hstop
  have hbefore : ∀ u ∈ tokens.take i, (u.start.offset : Int) ≤ offset := by
    intro u hu
    have := (List.pairwise_append.1 hstart).2.2 u hu _ List.mem_cons_self
    omega
  have hbehind : ∀ u ∈ tokens.drop (i + 1), offset < u.start.offset := by
    intro u hu
    have := (List.pairwise_cons.1 (List.pairwise_append.1 hstop).2.1).1 u hu
    omega
  have hindex := indexAt_append hbefore hfrom hbehind
  rwa [hcut, List.length_take_of_le (Nat.le_of_lt hlt)] at hindex

theorem indexAt_of_neg (tokens : List Token) (h : offset < 0) : indexAt tokens offset = -1 := by
  have hnone : tokens.countP (fun t => (t.start.offset : Int) ≤ offset) = 0 := by
    refine List.countP_eq_zero.2 fun t _ => ?_
    rw [decide_eq_true_eq]
    omega
  rw [indexAt, hnone]
  rfl

end Token

namespace Lexis

variable {L : Lexis} {s : List Char} {offset : Int}

/-! ## 2. The tokens of a text

Of the tokens of a text it is known that they lie side by side, so every offset of the text is in
one of them, and only the end mark starts where the text ends. -/

theorem pairwise_stop_tokens (L : Lexis) (s : List Char) :
    (L.tokens s).Pairwise fun t u => t.stop.offset ≤ u.start.offset := by
  have h : ∀ (ls : List Lexeme) (p : Position),
      (place p ls).Pairwise fun t u => t.stop.offset ≤ u.start.offset := by
    intro ls
    induction ls with
    | nil => exact fun p => List.pairwise_singleton _ _
    | cons l ls ih =>
      exact fun p => List.pairwise_cons.2 ⟨fun _ ht => le_start_of_mem_place ht, ih _⟩
  exact h _ _

theorem exists_covers (hfrom : 0 ≤ offset) (hto : offset < s.length) :
    ∃ (i : Nat) (t : Token), (L.tokens s)[i]? = some t ∧ t.Covers offset := by
  obtain ⟨n, rfl⟩ := Int.eq_ofNat_of_zero_le hfrom
  obtain ⟨A, l, B, hs, hA, hl⟩ := L.exists_covering (Nat.succ_pos n) (Int.ofNat_lt.1 hto)
  refine ⟨A.length, l.behind A, ?_, ?_, ?_⟩
  · rw [tokens_eq, hs, placed_append, List.append_assoc,
      List.getElem?_append_right (Nat.le_of_eq (length_placed _ _)), length_placed, Nat.sub_self]
    rfl
  · rw [Lexeme.start_behind]
    omega
  · rw [Lexeme.stop_behind]
    omega

theorem getElem?_tokens_endMark (L : Lexis) (s : List Char) :
    (L.tokens s)[(L.lexemes s).length]? = some (endMark s) := by
  rw [tokens_eq, List.getElem?_append_right (Nat.le_of_eq (length_placed _ _)), length_placed,
    Nat.sub_self]
  rfl

/-- **From the end of the text on, the end mark is found.**  It starts at the end of the text, and
no token starts behind it. -/
theorem indexAt_tokens_of_le (L : Lexis) (h : (s.length : Int) ≤ offset) :
    Token.indexAt (L.tokens s) offset = (L.lexemes s).length := by
  have hstart : ∀ u ∈ L.tokens s, (u.start.offset : Int) ≤ offset := by
    intro u hu
    have hend : (endMark s).start.offset = s.length := Position.offset_start_advance s
    rcases List.mem_append.1 (L.tokens_eq s ▸ hu) with hu | hu
    · have hpair := L.pairwise_start_tokens s
      rw [tokens_eq] at hpair
      have := (List.pairwise_append.1 hpair).2.2 u hu _ (List.mem_singleton_self _)
      omega
    · rw [List.mem_singleton.1 hu]
      omega
  rw [tokens_eq] at hstart ⊢
  rw [Token.indexAt_append (fun u hu => hstart u (List.mem_append_left _ hu))
    (hstart _ (List.mem_append_right _ (List.mem_singleton_self _)))
    (fun u hu => absurd hu List.not_mem_nil), length_placed]

/-- **The index of an offset is right exactly up to the end of the text**: it is that of the one
token that covers the offset, at the end that of the end mark, and -1 before the text.  Behind the
text there is no token, but the index is that of the end mark, too. -/
theorem findsCovering_iff (L : Lexis) (s : List Char) (offset : Int) :
    (Token.FindsCovering (L.tokens s) s.length offset ↔ offset ≤ s.length) ∧
      (s.length < offset → ∃ i : Nat, Token.indexAt (L.tokens s) offset = i ∧
        (L.tokens s)[i]? = some (endMark s) ∧ ¬(endMark s).Covers offset) := by
  have hmark := L.getElem?_tokens_endMark s
  refine ⟨⟨fun h => Int.not_lt.1 fun hbehind => ?_, fun hle => ⟨?_, ?_, ?_⟩⟩, fun hbehind => ?_⟩
  · -- behind the text the answer would have to be -1, but the end mark is found
    have hfound := L.indexAt_tokens_of_le (Int.le_of_lt hbehind)
    rw [h.outside (.inr hbehind)] at hfound
    omega
  · intro hfrom hto
    have hfind : ∀ (j : Nat) (u : Token), (L.tokens s)[j]? = some u → u.Covers offset →
        Token.indexAt (L.tokens s) offset = j :=
      fun _ _ => Token.indexAt_of_covers (L.pairwise_start_tokens s) (L.pairwise_stop_tokens s)
    obtain ⟨i, t, hi, hcovers⟩ := exists_covers (L := L) hfrom hto
    have hindex := hfind i t hi hcovers
    refine ⟨i, t, hindex, hi, hcovers, fun j u hj hu => ?_⟩
    exact Int.natCast_inj.1 ((hfind j u hj hu).symm.trans hindex)
  · intro hend
    exact ⟨_, _, L.indexAt_tokens_of_le (Int.le_of_eq hend.symm), hmark, rfl⟩
  · intro hout
    exact Token.indexAt_of_neg _ (hout.resolve_right (Int.not_lt.2 hle))
  · refine ⟨_, L.indexAt_tokens_of_le (Int.le_of_lt hbehind), hmark, fun hcovers => ?_⟩
    have hend : (endMark s).stop.offset = s.length := Position.offset_start_advance s
    have := hcovers.2
    omega

/-- In a comment that was left open, the last offset and the end of the text are told apart. -/
theorem findsCovering_iff_in_open_comment :
    let L : Lexis := {}
    let s := ['x', '/', '*', '\n']
    (3 : Int) ≤ s.length ∧ Token.FindsCovering (L.tokens s) s.length 3 ∧
      (4 : Int) ≤ s.length ∧ Token.FindsCovering (L.tokens s) s.length 4 ∧ (s.length : Int) < 5 ∧
      ∃ i : Nat, Token.indexAt (L.tokens s) 5 = i ∧ (L.tokens s)[i]? = some (endMark s) ∧
        ¬(endMark s).Covers 5 := by
  intro L s
  have hlast : (3 : Int) ≤ s.length := by decide
  have hend : (4 : Int) ≤ s.length := by decide
  have hbehind : (s.length : Int) < 5 := by decide
  exact ⟨hlast, (findsCovering_iff L s 3).1.2 hlast, hend, (findsCovering_iff L s 4).1.2 hend,
    hbehind, (findsCovering_iff L s 5).2 hbehind⟩

/-- Behind a text of one letter, the end mark is found where no token is. -/
theorem indexAt_behind_text :
    let L : Lexis := {}
    let s := ['a']
    (s.length : Int) < 2 ∧ (∀ t ∈ L.tokens s, ¬t.Covers 2) ∧
      Token.indexAt (L.tokens s) 2 = 1 ∧ ¬Token.FindsCovering (L.tokens s) s.length 2 := by
  intro L s
  have hlexemes : L.lexemes s = [⟨.identifier, ['a']⟩] := by cbv
  have hbehind : (s.length : Int) < 2 := by decide
  have hindex : Token.indexAt (L.tokens s) 2 = 1 := by
    rw [tokens, hlexemes]
    decide
  refine ⟨hbehind, ?_, hindex, fun h => ?_⟩
  · rw [tokens, hlexemes]
    unfold Token.Covers
    decide
  · rw [h.outside (.inr hbehind)] at hindex
    cases hindex

end Lexis

end SmartEnter
