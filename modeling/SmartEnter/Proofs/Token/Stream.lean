/-
# Lexemes, tokens and the text they come from

A text is read lexeme by lexeme, and a lexeme is read off the text that starts with it.  `Reads`
says so of one lexeme and of what follows it; the first lexeme of a text and the rest of them are
then one relation (`lexemes_eq_cons`, `Reads.lexemes_append`).

Tokens are lexemes with places.  This file turns statements about tokens into statements about
lexemes, where no offsets have to be added up:

* `mem_tokens_iff`: a token other than the end mark is a lexeme of the text at its place;
* `exists_covering`: every offset behind the start of the text lies in, or at the end of, exactly
  one lexeme;
* `reading_eq_filter`: what the tokens say, places left out, is what the lexemes say.

Where a lexeme stands is said by the list `A` of those before it.  Its offset is the length of what
they spell, and the text behind it is what the others spell, so a place is known once the list is
split there.
-/
import SmartEnter.Token.Lexis

namespace SmartEnter

def Lexeme.spell (ls : List Lexeme) : List Char := ls.flatMap Lexeme.text

/-- The token of a lexeme that starts at a place. -/
def Lexeme.placedAt (l : Lexeme) (p : Position) : Token := ⟨l.kind, l.text, p, p.advance l.text⟩

def Token.lexeme (t : Token) : Lexeme := ⟨t.kind, t.text⟩

namespace Lexeme

@[simp] theorem spell_nil : spell [] = [] := rfl

@[simp] theorem spell_cons (l : Lexeme) (ls : List Lexeme) : spell (l :: ls) = l.text ++ spell ls :=
  rfl

@[simp] theorem spell_append (ls ms : List Lexeme) : spell (ls ++ ms) = spell ls ++ spell ms :=
  List.flatMap_append

theorem spell_concat (ls : List Lexeme) (l : Lexeme) : spell (ls ++ [l]) = spell ls ++ l.text := by
  rw [spell_append, spell_cons, spell_nil, List.append_nil]

@[simp] theorem lexeme_placedAt (l : Lexeme) (p : Position) : (l.placedAt p).lexeme = l := rfl

@[simp] theorem kind_placedAt (l : Lexeme) (p : Position) : (l.placedAt p).kind = l.kind := rfl

@[simp] theorem start_placedAt (l : Lexeme) (p : Position) : (l.placedAt p).start = p := rfl

@[simp] theorem stop_placedAt (l : Lexeme) (p : Position) :
    (l.placedAt p).stop = p.advance l.text := rfl

end Lexeme

open Lexeme (spell)

theorem Position.offset_start_advance (s : List Char) :
    (Position.start.advance s).offset = s.length := by
  rw [offset_advance, start, Nat.zero_add]

/-- The token of a lexeme in a text that has the lexemes `A` before it. -/
def Lexeme.behind (l : Lexeme) (A : List Lexeme) : Token :=
  l.placedAt (Position.start.advance (spell A))

namespace Lexeme

@[simp] theorem text_behind (l : Lexeme) (A : List Lexeme) : (l.behind A).text = l.text := rfl

theorem start_behind (l : Lexeme) (A : List Lexeme) :
    (l.behind A).start.offset = (spell A).length :=
  Position.offset_start_advance (spell A)

theorem stop_behind (l : Lexeme) (A : List Lexeme) :
    (l.behind A).stop.offset = (spell (A ++ [l])).length := by
  rw [behind, stop_placedAt, ← Position.advance_append, Position.offset_start_advance,
    spell_concat]

end Lexeme

namespace Lexis

variable {L : Lexis}

/-! ## 1. Reading one lexeme

The relation speaks of a lexeme and of the text behind it, and of no text before.  So it can be used
wherever the lexeme stands. -/

/-- The lexeme `l` is what is read first off its own text with `y` behind it.  So `y` is what the
lexeme has to end before. -/
def Reads (L : Lexis) (l : Lexeme) (y : List Char) : Prop :=
  ∃ c t, l.text = c :: t ∧ L.next c (t ++ y) = (l.kind, t)

theorem Reads.text_ne_nil {l : Lexeme} {y : List Char} (h : L.Reads l y) : l.text ≠ [] := by
  obtain ⟨c, t, ht, -⟩ := h
  rw [ht]
  exact List.cons_ne_nil c t

/-- The text of a lexeme, read with what follows, gives the lexeme and then what follows. -/
theorem Reads.lexemes_append {l : Lexeme} {y : List Char} (h : L.Reads l y) :
    L.lexemes (l.text ++ y) = l :: L.lexemes y := by
  obtain ⟨c, t, ht, hn⟩ := h
  rw [ht, List.cons_append, lexemes_cons, hn, List.drop_left, ← ht]

/-- **The first lexeme of a text is read off the text, and the others are those of the rest.** -/
theorem lexemes_eq_cons {s : List Char} {l : Lexeme} {ls : List Lexeme}
    (h : L.lexemes s = l :: ls) : ∃ y, s = l.text ++ y ∧ L.Reads l y ∧ L.lexemes y = ls := by
  cases s with
  | nil => rw [lexemes_nil] at h; cases h
  | cons c rest =>
    rw [lexemes_cons] at h
    obtain ⟨rfl, rfl⟩ := List.cons.inj h
    have hs : (L.next c rest).2 ++ rest.drop (L.next c rest).2.length = rest :=
      List.prefix_iff_eq_append.1 (L.next_isPrefix c rest)
    refine ⟨rest.drop (L.next c rest).2.length, ?_, ⟨c, (L.next c rest).2, rfl, ?_⟩, rfl⟩
    · rw [List.cons_append, hs]
    · rw [hs]

theorem exists_lexemes_eq_cons {s : List Char} (hs : s ≠ []) :
    ∃ l y, L.lexemes s = l :: L.lexemes y ∧ s = l.text ++ y ∧ L.Reads l y := by
  cases h : L.lexemes s with
  | nil =>
    cases s with
    | nil => exact absurd rfl hs
    | cons c rest =>
      rw [lexemes_cons] at h
      cases h
  | cons l ls =>
    obtain ⟨y, hy, hr, rfl⟩ := lexemes_eq_cons h
    exact ⟨l, y, rfl, hy, hr⟩

theorem spell_lexemes (L : Lexis) (s : List Char) : spell (L.lexemes s) = s := L.flatMap_lexemes s

/-- What stands behind the first lexemes of a text is read as the other lexemes.  By induction over
the first ones. -/
theorem lexemes_eq_append {s : List Char} {A B : List Lexeme} (h : L.lexemes s = A ++ B) :
    s = spell A ++ spell B ∧ L.lexemes (spell B) = B := by
  induction A generalizing s with
  | nil =>
    rw [List.nil_append] at h
    rw [← h, spell_lexemes]
    exact ⟨rfl, rfl⟩
  | cons l A ih =>
    obtain ⟨y, rfl, -, hy⟩ := lexemes_eq_cons h
    obtain ⟨rfl, hB⟩ := ih hy
    exact ⟨by rw [Lexeme.spell_cons, List.append_assoc], hB⟩

theorem text_eq_of_lexemes {s : List Char} {A B : List Lexeme} {l : Lexeme}
    (h : L.lexemes s = A ++ l :: B) : s = spell A ++ (l.text ++ spell B) := by
  rw [(lexemes_eq_append h).1, Lexeme.spell_cons]

/-- Each lexeme of a text is read off the text that starts with it. -/
theorem reads_of_lexemes {s : List Char} {A B : List Lexeme} {l : Lexeme}
    (h : L.lexemes s = A ++ l :: B) : L.Reads l (spell B) := by
  obtain ⟨y, hs, hr, hy⟩ := lexemes_eq_cons (lexemes_eq_append h).2
  have hB : spell B = y := List.append_cancel_left (by rw [← hs, Lexeme.spell_cons])
  rw [hB]
  exact hr

/-! ## 2. Lexemes at their places

The place of a lexeme is found by passing all texts before it. -/

/-- Lexemes at their places, the first one at `p`. -/
def placed (p : Position) : List Lexeme → List Token
  | [] => []
  | l :: ls => l.placedAt p :: placed (p.advance l.text) ls

theorem place_eq_placed (p : Position) (ls : List Lexeme) :
    place p ls = placed p ls ++ [⟨.eof, [], p.advance (spell ls), p.advance (spell ls)⟩] := by
  induction ls generalizing p with
  | nil => rfl
  | cons l ls ih =>
    simp only [place, placed, ih, Lexeme.spell_cons, Position.advance_append, List.cons_append,
      Lexeme.placedAt]

theorem placed_append (p : Position) (A B : List Lexeme) :
    placed p (A ++ B) = placed p A ++ placed (p.advance (spell A)) B := by
  induction A generalizing p with
  | nil => rfl
  | cons l A ih =>
    simp only [List.cons_append, placed, ih, Lexeme.spell_cons, Position.advance_append]

@[simp] theorem length_placed (p : Position) (ls : List Lexeme) :
    (placed p ls).length = ls.length := by
  induction ls generalizing p with
  | nil => rfl
  | cons l ls ih => simp only [placed, List.length_cons, ih]

@[simp] theorem map_lexeme_placed (p : Position) (ls : List Lexeme) :
    (placed p ls).map Token.lexeme = ls := by
  induction ls generalizing p with
  | nil => rfl
  | cons l ls ih => simp only [placed, List.map_cons, ih, Lexeme.lexeme_placedAt]

/-- A token among placed lexemes is one of them, behind those that come before it. -/
theorem mem_placed_iff {p : Position} {ls : List Lexeme} {t : Token} :
    t ∈ placed p ls ↔ ∃ A l B, ls = A ++ l :: B ∧ t = l.placedAt (p.advance (spell A)) := by
  constructor
  · intro h
    induction ls generalizing p with
    | nil => cases h
    | cons l ls ih =>
      rcases List.mem_cons.1 h with rfl | h
      · exact ⟨[], l, ls, rfl, rfl⟩
      · obtain ⟨A, m, B, rfl, rfl⟩ := ih h
        exact ⟨l :: A, m, B, rfl, by rw [Lexeme.spell_cons, Position.advance_append]⟩
  · rintro ⟨A, l, B, rfl, rfl⟩
    rw [placed_append]
    exact List.mem_append_right _ List.mem_cons_self

def endMark (s : List Char) : Token :=
  ⟨.eof, [], Position.start.advance s, Position.start.advance s⟩

theorem tokens_eq (L : Lexis) (s : List Char) :
    L.tokens s = placed .start (L.lexemes s) ++ [endMark s] := by
  rw [tokens, place_eq_placed, spell_lexemes, endMark]

/-- **A token is a lexeme of the text at its place, or the end mark.** -/
theorem mem_tokens_iff {s : List Char} {t : Token} :
    t ∈ L.tokens s ↔
      (∃ A l B, L.lexemes s = A ++ l :: B ∧ t = l.behind A) ∨ t = endMark s := by
  rw [tokens_eq, List.mem_append, mem_placed_iff, List.mem_singleton]
  rfl

theorem behind_mem_tokens {s : List Char} {A B : List Lexeme} {l : Lexeme}
    (h : L.lexemes s = A ++ l :: B) : l.behind A ∈ L.tokens s :=
  mem_tokens_iff.2 (.inl ⟨A, l, B, h, rfl⟩)

theorem exists_lexeme_of_mem_tokens {s : List Char} {t : Token} (h : t ∈ L.tokens s)
    (hk : t.kind ≠ .eof) :
    ∃ A l B, L.lexemes s = A ++ l :: B ∧ t = l.behind A := by
  rcases mem_tokens_iff.1 h with h | rfl
  · exact h
  · exact absurd rfl hk

/-! ## 3. The lexeme at an offset

The lexeme that an offset lies in has fewer characters before it than the offset, and with it there
are as many or more.  An offset between two lexemes belongs to the first. -/

theorem exists_covering_spell {ls : List Lexeme} {n : Nat} (h : 0 < n)
    (hn : n ≤ (spell ls).length) :
    ∃ A l B, ls = A ++ l :: B ∧ (spell A).length < n ∧ n ≤ (spell (A ++ [l])).length := by
  induction ls generalizing n with
  | nil => rw [Lexeme.spell_nil, List.length_nil] at hn; omega
  | cons l ls ih =>
    rw [Lexeme.spell_cons, List.length_append] at hn
    by_cases hl : n ≤ l.text.length
    · exact ⟨[], l, ls, rfl, h, by simpa using hl⟩
    · obtain ⟨A, m, B, rfl, hA, hm⟩ := ih (n := n - l.text.length) (by omega) (by omega)
      refine ⟨l :: A, m, B, rfl, ?_, ?_⟩
      · rw [Lexeme.spell_cons, List.length_append]
        omega
      · rw [List.cons_append, Lexeme.spell_cons, List.length_append]
        omega

/-- **An offset behind the start of the text lies in one lexeme, or at its end.** -/
theorem exists_covering (L : Lexis) {s : List Char} {n : Nat} (h : 0 < n) (hn : n ≤ s.length) :
    ∃ A l B, L.lexemes s = A ++ l :: B ∧ (spell A).length < n ∧
      n ≤ (spell (A ++ [l])).length :=
  exists_covering_spell h (by rw [spell_lexemes]; exact hn)

/-- An offset that is strictly inside no token is the end of some first lexemes of the text. -/
theorem exists_boundary (L : Lexis) {s : List Char} {n : Nat} (h : 0 < n) (hn : n ≤ s.length)
    (hout : ∀ t ∈ L.tokens s, ¬(t.start.offset < n ∧ n < t.stop.offset)) :
    ∃ A l B, L.lexemes s = A ++ l :: B ∧ (spell (A ++ [l])).length = n := by
  obtain ⟨A, l, B, hs, hA, hl⟩ := L.exists_covering h hn
  refine ⟨A, l, B, hs, ?_⟩
  have ht := hout _ (behind_mem_tokens hs)
  rw [Lexeme.start_behind, Lexeme.stop_behind] at ht
  omega

/-! ## 4. What a text says -/

/-- The kinds and texts of the tokens of a text, in order, some kinds of token left out.  With the
kinds of layout left out, texts that differ only in layout say the same. -/
def reading (L : Lexis) (without : List TokenKind) (s : List Char) : List Lexeme :=
  ((L.tokens s).filter (·.kind ∉ without)).map Token.lexeme

/-- With the end mark left out, a text says what its lexemes say. -/
theorem reading_eq_filter (L : Lexis) {without : List TokenKind} (h : .eof ∈ without)
    (s : List Char) : L.reading without s = (L.lexemes s).filter (·.kind ∉ without) := by
  have he : [endMark s].filter (·.kind ∉ without) = [] := by simp [endMark, h]
  have hp := map_lexeme_placed .start (L.lexemes s)
  calc L.reading without s
      = ((placed .start (L.lexemes s)).filter (·.kind ∉ without)).map Token.lexeme := by
        rw [reading, tokens_eq, List.filter_append, he, List.append_nil]
    _ = ((placed .start (L.lexemes s)).map Token.lexeme).filter (·.kind ∉ without) := by
        rw [List.filter_map]
        rfl
    _ = (L.lexemes s).filter (·.kind ∉ without) := by rw [hp]

end Lexis

end SmartEnter
