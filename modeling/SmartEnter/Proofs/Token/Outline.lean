/-
# Tokens in order, and their outline

Tokens stand in the order of their places (`pairwise_tokens`).  So the search before an offset,
which counts tokens and walks back over some of them, ends at the last token that starts there and
is not blank, unless that token starts before the limit (`nearest?_tokens`).

Who asks for the last token mostly wants to know its kind and where it starts.  The outline of a
text is the list of these marks, blank tokens left out, and it is read off the lexemes
(`lastBefore?_tokens`).

Outlines are what texts are compared by, when one is another one with lines put in front, with line
breaks of another style, or cut off below.  All of these move marks or leave them, and keep their
order, so the last mark before a place is the same mark in both texts (`outline_append`,
`outline_add`).
-/
import SmartEnter.Proofs.Token.Stream
import SmartEnter.Token.Search
import Mathlib.Data.List.Induction

namespace SmartEnter

open Lexeme (spell)

namespace Token

/-- The last token that starts before an offset and is not blank.  It may go on behind the
offset. -/
def lastBefore? (blanks : List TokenKind) (n : Nat) (tokens : List Token) : Option Token :=
  (tokens.filter fun t => t.start.offset < n ∧ t.kind ∉ blanks).getLast?

/-- The kind of a token, and where it starts: all that a press asks of the token before the
caret. -/
structure Mark where
  kind : TokenKind
  place : Nat
  deriving Repr, DecidableEq

def Mark.move (f : Nat → Nat) (m : Mark) : Mark := ⟨m.kind, f m.place⟩

def mark (t : Token) : Mark := ⟨t.kind, t.start.offset⟩

theorem lastBefore?_eq_some {blanks : List TokenKind} {n : Nat} {tokens : List Token} {t : Token}
    (h : lastBefore? blanks n tokens = some t) :
    t ∈ tokens ∧ t.start.offset < n ∧ t.kind ∉ blanks := by
  have hmem := List.mem_of_getLast? h
  simpa using hmem

/-! ## 1. The search in an ordered list

What the search does with its index and its walk back is here turned into a filter and a last
element, for any tokens in order. -/

/-- If what holds of an element holds of all before it, it holds of a first part of the list, and
that part is as long as there are elements of which it holds. -/
theorem take_countP_eq_filter {α : Type} {p : α → Bool} {xs : List α}
    (h : xs.Pairwise fun a b => p b = true → p a = true) :
    xs.take (xs.countP p) = xs.filter p := by
  induction xs with
  | nil => rfl
  | cons a xs ih =>
    obtain ⟨ha, hxs⟩ := List.pairwise_cons.1 h
    by_cases hp : p a = true
    · rw [List.countP_cons_of_pos hp, List.take_succ_cons, List.filter_cons_of_pos hp, ih hxs]
    · have hnone : ∀ b ∈ xs, ¬p b = true := fun b hb hpb => hp (ha b hb hpb)
      rw [List.countP_cons_of_neg hp, List.countP_eq_zero.2 hnone, List.take_zero,
        List.filter_cons_of_neg hp, List.filter_eq_nil_iff.2 hnone]

variable {blanks : List TokenKind} {lowest : Int}

/-- Walking back over tokens in order ends at the last one that is not blank, or at the limit. -/
theorem nearestOf_reverse {tokens : List Token}
    (h : tokens.Pairwise fun t u => t.start.offset ≤ u.start.offset) :
    nearestOf blanks lowest tokens.reverse =
      (tokens.filter (·.kind ∉ blanks)).getLast?.filter (lowest ≤ ·.start.offset) := by
  induction tokens using List.reverseRecOn with
  | nil => rfl
  | append_singleton tokens t ih =>
    obtain ⟨htokens, -, hlast⟩ := List.pairwise_append.1 h
    rw [List.reverse_append, List.reverse_singleton, List.singleton_append, nearestOf,
      List.filter_append]
    by_cases hlow : t.start.offset < lowest
    · -- all tokens before start before the limit, too
      rw [if_pos hlow, eq_comm, Option.filter_eq_none_iff]
      intro u hu
      have hmem : u ∈ tokens ++ [t] := by
        have := List.mem_of_getLast? hu
        rw [← List.filter_append] at this
        exact (List.mem_filter.1 this).1
      have hle : u.start.offset ≤ t.start.offset := by
        rcases List.mem_append.1 hmem with hu | hu
        · exact hlast u hu t (List.mem_singleton.2 rfl)
        · exact Nat.le_of_eq (by rw [List.mem_singleton.1 hu])
      simp only [decide_eq_true_eq, Int.not_le]
      omega
    · rw [if_neg hlow]
      by_cases hk : t.kind ∈ blanks
      · rw [if_pos hk, ih htokens, List.filter_cons_of_neg (by simpa using hk), List.filter_nil,
          List.append_nil]
      · rw [if_neg hk, List.filter_cons_of_pos (by simpa using hk), List.filter_nil,
          List.getLast?_concat, Option.filter_some, if_pos (by simpa using hlow)]

/-- **The search before an offset** ends at the last token there that is not blank, unless it starts
before the limit. -/
theorem nearest?_indexAt {tokens : List Token} {n : Nat}
    (h : tokens.Pairwise fun t u => t.start.offset ≤ u.start.offset) :
    nearest? tokens (indexAt tokens ((n : Int) - 1)) lowest blanks =
      (lastBefore? blanks n tokens).filter (lowest ≤ ·.start.offset) := by
  have hcount : tokens.countP (fun t => (t.start.offset : Int) ≤ (n : Int) - 1) =
      tokens.countP (·.start.offset < n) := by
    refine List.countP_congr fun t _ => ?_
    simp only [decide_eq_true_eq]
    omega
  have hfilter : tokens.take (tokens.countP (·.start.offset < n)) =
      tokens.filter (·.start.offset < n) := by
    refine take_countP_eq_filter (h.imp ?_)
    intro t u hle hu
    simp only [decide_eq_true_eq] at hu ⊢
    omega
  have hlast : lastBefore? blanks n tokens =
      ((tokens.filter (·.start.offset < n)).filter (·.kind ∉ blanks)).getLast? := by
    rw [lastBefore?, List.filter_filter]
    congr 2
    funext t
    simp [Bool.and_comm]
  have hle := List.countP_le_length (p := fun t : Token => t.start.offset < n) (l := tokens)
  rw [nearest?, indexAt, hcount, hlast]
  by_cases hzero : tokens.countP (·.start.offset < n) = 0
  · rw [if_neg (by omega), ← hfilter, hzero]
    rfl
  · rw [if_pos ⟨by omega, by omega⟩,
      show ((tokens.countP (·.start.offset < n) : Int) - 1).toNat + 1 =
        tokens.countP (·.start.offset < n) by omega, hfilter, nearestOf_reverse (h.filter _)]

end Token

namespace Lexis

variable {L : Lexis} {blanks : List TokenKind} {s : List Char} {n : Nat}

theorem le_start_of_mem_place {p : Position} {ls : List Lexeme} {t : Token}
    (h : t ∈ place p ls) : p.offset ≤ t.start.offset := by
  induction ls generalizing p with
  | nil =>
    obtain rfl := List.mem_singleton.1 h
    exact Nat.le_refl _
  | cons l ls ih =>
    rcases List.mem_cons.1 h with rfl | h
    · exact Nat.le_refl _
    · have := ih h
      rw [Position.offset_advance] at this
      omega

/-- **Tokens stand in the order of their places.**  By induction over the lexemes, each of which is
placed behind the one before it. -/
theorem pairwise_tokens (L : Lexis) (s : List Char) :
    (L.tokens s).Pairwise fun t u => t.start.offset ≤ u.start.offset := by
  have h : ∀ (ls : List Lexeme) (p : Position),
      (place p ls).Pairwise fun t u => t.start.offset ≤ u.start.offset := by
    intro ls
    induction ls with
    | nil => intro p; exact List.pairwise_singleton _ _
    | cons l ls ih =>
      intro p
      refine List.pairwise_cons.2 ⟨?_, ih _⟩
      intro t ht
      have := le_start_of_mem_place ht
      rw [Position.offset_advance] at this
      exact Nat.le_trans (Nat.le_add_right _ _) this
  exact h _ _

theorem nearest?_tokens {lowest : Int} :
    Token.nearest? (L.tokens s) (Token.indexAt (L.tokens s) ((n : Int) - 1)) lowest blanks =
      (Token.lastBefore? blanks n (L.tokens s)).filter (lowest ≤ ·.start.offset) :=
  Token.nearest?_indexAt (L.pairwise_tokens s)

end Lexis

/-! ## 2. The outline

The filter keeps the tokens that count and start early enough.  Of these the outline keeps the kind
and the place, and it is calculated from the lexemes without placing them. -/

namespace Lexeme

variable {blanks : List TokenKind} {n : Nat}

/-- The marks of lexemes that are not blank, the first lexeme standing at `n`.  The texts of blank
lexemes count for the places of those behind them. -/
def outline (blanks : List TokenKind) (n : Nat) : List Lexeme → List Token.Mark
  | [] => []
  | l :: ls =>
    if l.kind ∈ blanks then outline blanks (n + l.text.length) ls
    else ⟨l.kind, n⟩ :: outline blanks (n + l.text.length) ls

@[simp] theorem outline_nil : outline blanks n [] = [] := rfl

theorem outline_cons_of_mem {l : Lexeme} (h : l.kind ∈ blanks) (ls : List Lexeme) :
    outline blanks n (l :: ls) = outline blanks (n + l.text.length) ls := by
  rw [outline, if_pos h]

theorem outline_cons_of_not_mem {l : Lexeme} (h : l.kind ∉ blanks) (ls : List Lexeme) :
    outline blanks n (l :: ls) = ⟨l.kind, n⟩ :: outline blanks (n + l.text.length) ls := by
  rw [outline, if_neg h]

theorem outline_append (A B : List Lexeme) :
    outline blanks n (A ++ B) = outline blanks n A ++ outline blanks (n + (spell A).length) B := by
  induction A generalizing n with
  | nil => rfl
  | cons l A ih =>
    have hn : n + l.text.length + (spell A).length = n + (spell (l :: A)).length := by
      rw [spell_cons, List.length_append, Nat.add_assoc]
    by_cases h : l.kind ∈ blanks
    · rw [List.cons_append, outline_cons_of_mem h, outline_cons_of_mem h, ih, hn]
    · rw [List.cons_append, outline_cons_of_not_mem h, outline_cons_of_not_mem h, ih, hn,
        List.cons_append]

theorem outline_cons (l : Lexeme) (ls : List Lexeme) :
    outline blanks n (l :: ls) = outline blanks n [l] ++ outline blanks (n + l.text.length) ls := by
  rw [← List.singleton_append, outline_append, spell_cons, spell_nil, List.append_nil]

theorem outline_singleton {l m : Lexeme} (h : l.kind = m.kind) :
    outline blanks n [l] = outline blanks n [m] := by
  by_cases hl : l.kind ∈ blanks
  · rw [outline_cons_of_mem hl, outline_cons_of_mem (h ▸ hl)]
    rfl
  · rw [outline_cons_of_not_mem hl, outline_cons_of_not_mem (h ▸ hl), h]
    rfl

theorem outline_add (k : Nat) (ls : List Lexeme) :
    outline blanks (k + n) ls = (outline blanks n ls).map (Token.Mark.move (k + ·)) := by
  induction ls generalizing n with
  | nil => rfl
  | cons l ls ih =>
    by_cases hl : l.kind ∈ blanks
    · rw [outline_cons_of_mem hl, outline_cons_of_mem hl, Nat.add_assoc, ih]
    · rw [outline_cons_of_not_mem hl, outline_cons_of_not_mem hl, Nat.add_assoc, ih]
      rfl

theorem le_place_of_mem_outline {ls : List Lexeme} {m : Token.Mark} (h : m ∈ outline blanks n ls) :
    n ≤ m.place := by
  induction ls generalizing n with
  | nil => cases h
  | cons l ls ih =>
    by_cases hl : l.kind ∈ blanks
    · rw [outline_cons_of_mem hl] at h
      exact Nat.le_trans (Nat.le_add_right n _) (ih h)
    · rw [outline_cons_of_not_mem hl] at h
      rcases List.mem_cons.1 h with rfl | h
      · exact Nat.le_refl _
      · exact Nat.le_trans (Nat.le_add_right n _) (ih h)

theorem place_lt_of_mem_outline {ls : List Lexeme} (hne : ∀ l ∈ ls, l.text ≠ []) {m : Token.Mark}
    (h : m ∈ outline blanks n ls) : m.place < n + (spell ls).length := by
  induction ls generalizing n with
  | nil => cases h
  | cons l ls ih =>
    have hl := List.length_pos_iff.2 (hne l List.mem_cons_self)
    have hls := fun k hk => hne k (List.mem_cons_of_mem l hk)
    rw [spell_cons, List.length_append]
    by_cases hk : l.kind ∈ blanks
    · rw [outline_cons_of_mem hk] at h
      have := ih hls h
      omega
    · rw [outline_cons_of_not_mem hk] at h
      rcases List.mem_cons.1 h with rfl | h
      · dsimp only
        omega
      · have := ih hls h
        omega

theorem filter_outline_eq_nil {ls : List Lexeme} {k : Nat} (h : k ≤ n) :
    (outline blanks n ls).filter (·.place < k) = [] := by
  rw [List.filter_eq_nil_iff]
  intro m hm
  have := le_place_of_mem_outline hm
  simp only [decide_eq_true_eq]
  omega

end Lexeme

namespace Lexis

variable {L : Lexis} {blanks : List TokenKind} {s : List Char} {n : Nat}

theorem text_ne_nil_of_mem_lexemes {l : Lexeme} (h : l ∈ L.lexemes s) : l.text ≠ [] := by
  obtain ⟨A, B, hs⟩ := List.append_of_mem h
  exact (reads_of_lexemes hs).text_ne_nil

theorem map_mark_filter_placed (p : Position) (ls : List Lexeme) :
    ((placed p ls).filter fun t => t.start.offset < n ∧ t.kind ∉ blanks).map Token.mark =
      (Lexeme.outline blanks p.offset ls).filter (·.place < n) := by
  induction ls generalizing p with
  | nil => rfl
  | cons l ls ih =>
    have hrest := ih (p.advance l.text)
    rw [Position.offset_advance] at hrest
    by_cases hk : l.kind ∈ blanks
    · rw [placed, Lexeme.outline_cons_of_mem hk, List.filter_cons_of_neg (by simp [hk]), hrest]
    · rw [placed, Lexeme.outline_cons_of_not_mem hk]
      by_cases hn : p.offset < n
      · rw [List.filter_cons_of_pos (by simp [hk, hn]), List.map_cons, hrest,
          List.filter_cons_of_pos (by simpa using hn)]
        rfl
      · rw [List.filter_cons_of_neg (by simp [hn]), hrest,
          List.filter_cons_of_neg (by simpa using hn)]

/-- **The mark of the last token before an offset** is the last one in the outline before it. -/
theorem lastBefore?_tokens (hn : n ≤ s.length) :
    (Token.lastBefore? blanks n (L.tokens s)).map Token.mark =
      ((Lexeme.outline blanks 0 (L.lexemes s)).filter (·.place < n)).getLast? := by
  have hend : [endMark s].filter (fun t => t.start.offset < n ∧ t.kind ∉ blanks) = [] := by
    rw [List.filter_cons_of_neg, List.filter_nil]
    simp only [endMark, Position.offset_start_advance, decide_eq_true_eq, not_and]
    intro h
    omega
  rw [Token.lastBefore?, tokens_eq, List.filter_append, hend, List.append_nil, ← List.getLast?_map,
    map_mark_filter_placed]
  rfl

end Lexis

end SmartEnter
