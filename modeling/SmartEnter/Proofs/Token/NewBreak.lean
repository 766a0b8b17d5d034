/-
# A line feed that is put in

A line feed put in at a place is read as the end of a line break, unless a block comment goes over
it.  If no block comment covers the place in the old text, none goes over the line feed in the new
one: its two opening characters would be there in the old text, too, and would open a block comment
that ends before the place, and so it would end in the new text (`Reads.of_closed`).

So whatever stands behind the line feed is read as if nothing stood before it
(`lexemes_break_behind`).

Two characters tell whether a block comment is read, where no marker is longer
(`OpensBlock.of_take`).  An opener of just two characters stands before the line feed with all of
them, so nothing that comes behind can change what is read there (`OpensWithTwo`).
-/
import SmartEnter.Proofs.Token.LineFeeds
import SmartEnter.Proofs.Token.Cut
import SmartEnter.Proofs.Token.Nearest

namespace SmartEnter

open Lexeme (spell)
open Text (isBlank isBreak isBreak_cons_iff)

namespace Lexis

variable {L : Lexis} {l m : Lexeme} {s s' y y' : List Char}

/-- Markers are short, and a block comment opens with two characters. -/
structure OpensWithTwo (L : Lexis) : Prop extends L.Short where
  length_opener : ∀ m q, L.blockComment = some (m, q) → m.length = 2

/-! ## 1. Block comments

When a block comment is read, and what of the text behind it decides where it ends. -/

/-- A block comment is read off the text: no layout starts there and no line comment, and an opener
does. -/
structure OpensBlock (L : Lexis) (s : List Char) : Prop where
  noBreak : isBreak s = false
  noBlank : ∀ c, s.head? = some c → isBlank c = false
  noLineComment : L.startsLineComment s = false
  opens : L.startsBlockComment s = true

theorem Reads.kind_eq_blockComment_iff (h : L.Reads l y) :
    l.kind = .blockComment ↔ L.OpensBlock (l.text ++ y) := by
  obtain ⟨c, rest, t, ht, hr, hb⟩ := reads_iff_branch.1 h
  rw [ht, List.cons_append, ← hr]
  constructor
  · intro hk
    rw [hk] at hb
    cases hb with
    | delimiter _ _ hd => exact absurd (by decide) (kind_of_delimiter hd)
    | blockComment hb hw hl ho =>
      refine ⟨hb, ?_, hl, ho⟩
      rintro _ ⟨⟩
      exact hw
  · intro ho
    have hbr : Branch L c rest .blockComment _ :=
      .blockComment ho.noBreak (ho.noBlank c rfl) ho.noLineComment ho.opens
    exact (Prod.mk.inj (hb.next_eq.symm.trans hbr.next_eq)).1

/-- Two characters tell whether a block comment is read, in a language with short markers. -/
theorem OpensBlock.of_take (hL : L.Short) (h : L.OpensBlock s) (ht : s.take 2 = s'.take 2) :
    L.OpensBlock s' where
  noBreak := by
    have hb := h.noBreak
    rcases eq_or_of_take_two ht with rfl | ⟨c, d, r, r', rfl, rfl⟩
    · exact hb
    · rw [← Bool.not_eq_true, isBreak_cons_iff] at hb ⊢
      exact hb
  noBlank := by
    rcases eq_or_of_take_two ht with rfl | ⟨c, d, r, r', rfl, rfl⟩
    · exact h.noBlank
    · exact h.noBlank
  noLineComment := by
    have hl := h.noLineComment
    rw [← Bool.not_eq_true, startsLineComment_iff] at hl ⊢
    rintro ⟨m, hm, hp⟩
    exact hl ⟨m, hm, prefix_of_take (hL.length_le m (mem_markers_of_line hm)) ht.symm hp⟩
  opens := by
    obtain ⟨m, q, hm, hp⟩ := startsBlockComment_iff.1 h.opens
    exact startsBlockComment_iff.2
      ⟨m, q, hm, prefix_of_take (hL.length_le m (mem_markers_of_block hm)) ht hp⟩

/-- **A block comment that is closed is read whatever follows**, if its text shows that it is
one. -/
theorem Reads.of_closed (hL : L.Short) (h : L.Reads l y) (hk : l.kind = .blockComment)
    (hclosed : L.Closes l.text) (hlen : 2 ≤ l.text.length) (y' : List Char) : L.Reads l y' := by
  have ho := h.kind_eq_blockComment_iff.1 hk
  have ho' : L.OpensBlock (l.text ++ y') := by
    refine ho.of_take hL ?_
    rw [List.take_append_of_le_length hlen, List.take_append_of_le_length hlen]
  obtain ⟨c, rest, t, ht, hr, hb⟩ := reads_iff_branch.1 h
  rw [ht] at ho' hclosed
  rw [hk] at hb
  refine reads_iff_branch.2 ⟨c, t ++ y', t, ht, rfl, ?_⟩
  rw [hk]
  cases hb with
  | delimiter _ _ hd => exact absurd (by decide) (kind_of_delimiter hd)
  | blockComment _ _ _ hopens =>
    obtain ⟨-, htext⟩ := blockCommentText_of_closes hL.toRegular hopens rfl hr hclosed y'
    refine (Branch.blockComment ho'.noBreak (ho'.noBlank c rfl) ho'.noLineComment
      ho'.opens).congr ?_
    have htail := congrArg List.tail htext
    exact htail

theorem Reads.two_le_of_blockComment (hL : L.OpensWithTwo) (h : L.Reads l y)
    (hk : l.kind = .blockComment) : 2 ≤ l.text.length := by
  obtain ⟨c, rest, t, ht, -, hb⟩ := reads_iff_branch.1 h
  rw [hk] at hb
  cases hb with
  | delimiter _ _ hd => exact absurd (by decide) (kind_of_delimiter hd)
  | blockComment _ _ _ hopens =>
    obtain ⟨m, closer, s, hm, -, htext⟩ := exists_blockCommentText hL.toRegular hopens
    rw [ht, htext, List.length_append, hL.length_opener m closer hm]
    omega

/-! ## 2. The line feed

The lexeme that covers the line feed is a line break or a block comment.  The second is led to a
contradiction with the lexemes of the old text. -/

/-- A lexeme that starts before a place or at it, and has a line feed put in there in it, is a line
break that ends with the line feed, or a block comment that opens before the place. -/
theorem Reads.cases_of_newline (hL : L.OpensWithTwo) {w z : List Char} (h : L.Reads l y)
    (hl : l.text = w ++ '\n' :: z) :
    l.kind = .newline ∧ z = [] ∨ l.kind = .blockComment ∧ 2 ≤ w.length := by
  rcases h.kind_of_newline_mem (by rw [hl]; simp) with hk | hk
  · have happ : l.text ++ [] = (w ++ ['\n']) ++ z := by
      rw [hl]
      simp
    obtain ⟨b, -, hnil⟩ := Text.exists_append_of_break (h.text_of_newline hk) happ (by simp)
    exact .inl ⟨hk, (List.append_eq_nil_iff.1 hnil.symm).2⟩
  · refine .inr ⟨hk, ?_⟩
    obtain ⟨m, q, hm, hp⟩ := startsBlockComment_iff.1 (h.kind_eq_blockComment_iff.1 hk).opens
    rw [hl, List.append_assoc, List.cons_append] at hp
    have hpw := prefix_of_endsHere (.inr rfl) (hL.inLine m (mem_markers_of_block hm)).1 hp
    rw [← hL.length_opener m q hm]
    exact hpw.length_le

/-- The part that holds the line feed behind `u`: what `u` has of it, and what it has behind. -/
theorem exists_append_newline {u v a b d : List Char} (h : u ++ '\n' :: v = a ++ (b ++ d))
    (ha : a.length ≤ u.length) (hb : u.length < (a ++ b).length) :
    ∃ w z, u = a ++ w ∧ b = w ++ '\n' :: z ∧ v = z ++ d := by
  obtain ⟨w, rfl⟩ : a <+: u := List.prefix_of_prefix_length_le
    (h ▸ List.prefix_append a (b ++ d)) (List.prefix_append u ('\n' :: v)) ha
  rw [List.append_assoc] at h
  have hbd := List.append_cancel_left h
  rcases List.append_eq_append_iff.1 hbd with ⟨x, hx, hd⟩ | ⟨x, hx, -⟩
  · cases x with
    | nil =>
      rw [hx] at hb
      simp at hb
    | cons e z =>
      obtain ⟨rfl, rfl⟩ := List.cons.inj hd
      exact ⟨w, z, rfl, hx, rfl⟩
  · rw [hx] at hb
    simp only [List.length_append] at hb
    omega

/-- A block comment that holds the line feed would be there without it, and would cover the
place. -/
theorem Reads.exists_block_before (hL : L.OpensWithTwo) (h : L.Reads l y)
    (hk : l.kind = .blockComment) {w z : List Char} (hl : l.text = w ++ '\n' :: z)
    (hlen : 2 ≤ w.length) (r : List Char) :
    ∃ m x, L.lexemes (w ++ r) = m :: L.lexemes x ∧ m.kind = .blockComment ∧
      w.length ≤ m.text.length := by
  obtain ⟨m, x, hm, hx, hread⟩ := exists_lexemes_eq_cons (L := L) (s := w ++ r)
    (List.append_ne_nil_of_left_ne_nil (List.ne_nil_of_length_pos (by omega)) r)
  have hmk : m.kind = .blockComment := by
    rw [hread.kind_eq_blockComment_iff, ← hx]
    refine (h.kind_eq_blockComment_iff.1 hk).of_take hL.toShort ?_
    rw [hl, List.append_assoc, List.take_append_of_le_length hlen,
      List.take_append_of_le_length hlen]
  refine ⟨m, x, hm, hmk, ?_⟩
  by_contra hshort
  -- the comment is closed before the place, so it would be read before the line feed, too
  obtain ⟨w', rfl⟩ : m.text <+: w := List.prefix_of_prefix_length_le
    (hx ▸ List.prefix_append m.text x) (List.prefix_append w r) (by omega)
  rw [List.append_assoc] at hx
  obtain rfl := List.append_cancel_left hx
  have hne : w' ++ r ≠ [] := by
    refine List.append_ne_nil_of_left_ne_nil ?_ r
    rintro rfl
    simp at hshort
  have hnew := hread.of_closed hL.toShort hmk (hread.closes hL.toRegular hmk hne)
    (hread.two_le_of_blockComment hL hmk) (w' ++ '\n' :: z ++ y)
  have hlex := hnew.lexemes_append
  rw [← List.append_assoc, ← List.append_assoc, ← hl, h.lexemes_append] at hlex
  rw [(List.cons.inj hlex).1] at hl
  have := congrArg List.length hl
  simp only [List.length_append, List.length_cons] at this
  omega

/-- **Behind a line feed that is put in, the text is read as if nothing stood before**, unless it is
put in inside a block comment.  The lexemes before the line feed may be other ones than before. -/
theorem lexemes_break_behind (hL : L.OpensWithTwo) {u r : List Char}
    {A B : List Lexeme} (h : L.lexemes (u ++ r) = A ++ l :: B) (hA : (spell A).length < u.length)
    (hu : u.length ≤ (spell (A ++ [l])).length) (hk : l.kind ≠ .blockComment) (v : List Char) :
    ∃ C, L.lexemes (u ++ '\n' :: v) = C ++ L.lexemes v ∧ spell C = u ++ ['\n'] := by
  obtain ⟨C, m, D, hC, hstart, hstop⟩ := L.exists_covering (s := u ++ '\n' :: v) (n := u.length + 1)
    (Nat.zero_lt_succ _) (by simp)
  obtain ⟨htext, hD⟩ := lexemes_eq_append (A := C ++ [m]) (B := D) (by rw [hC]; simp)
  rw [Lexeme.spell_concat] at htext hstop
  rw [List.append_assoc] at htext
  obtain ⟨w, z, rfl, hz, rfl⟩ :=
    exists_append_newline htext (Nat.le_of_lt_succ hstart) (Nat.lt_of_succ_le hstop)
  have hm : L.Reads m (spell D) := reads_of_lexemes hC
  rcases hm.cases_of_newline hL hz with ⟨-, rfl⟩ | ⟨hmk, hlen⟩
  · refine ⟨C ++ [m], ?_, ?_⟩
    · rw [hC, List.nil_append, hD]
      simp
    · rw [Lexeme.spell_concat, hz, List.append_assoc]
  · -- the block comment would cover the place in the old text
    exfalso
    obtain ⟨k, x, hk', hkk, hkw⟩ := hm.exists_block_before hL hmk hz hlen r
    have hold := lexemes_of_take hL.toShort hC (v := w ++ r) (List.cons_ne_nil m D) (by
      rw [Lexeme.spell_cons, hz, List.append_assoc, List.take_append_of_le_length hlen,
        List.take_append_of_le_length hlen])
    rw [← List.append_assoc, h, hk'] at hold
    rw [List.length_append] at hA hu
    obtain ⟨-, rfl, -⟩ := Lexeme.covering_unique hold hA hu (by omega)
      (by rw [Lexeme.spell_concat, List.length_append]; omega)
    exact hk hkk

end Lexis

end SmartEnter
