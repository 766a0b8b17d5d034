/-
# Layout does not count

A reading of a text that leaves out white space and line breaks is not changed by blanks in front of
the text (`filter_lexemes_blanks`), nor by a line break (`lexemes_break`).  Together with the cut
this gives that a line break and blanks between two lexemes of a text leave the reading as it was
(`reading_insert_break`).

The second part is about texts that are nothing but layout.  Whether a text is layout can be told
from its characters and their neighbours (`IsLayout`), and it is what white space and line breaks
make up (`isLayout_spell`).  The condition is one on characters so that it can be cut: an end of
layout is layout, and so is a line of it with the line feed that ends it (`IsLayout.of_append`,
`IsLayout.line`).
-/
import SmartEnter.Proofs.Token.Cut

namespace SmartEnter

open Lexeme (spell)
open Text (isBlank)

namespace Lexis

variable {L : Lexis}

/-! ## 1. What is left out

A reading is a filter on lexemes.  Whatever it keeps, it must not keep white space, or blanks would
count. -/

theorem lexemes_break (L : Lexis) {br : List Char} (hbr : br = ['\n'] ∨ br = ['\r', '\n'])
    (s : List Char) : L.lexemes (br ++ s) = ⟨.newline, br⟩ :: L.lexemes s := by
  have hr : L.Reads ⟨.newline, br⟩ s := by
    rcases hbr with rfl | rfl
    · have hb : Branch L '\n' s .newline [] := .newline rfl
      exact ⟨'\n', [], rfl, hb.next_eq⟩
    · have hb : Branch L '\r' ('\n' :: s) .newline ['\n'] := .newline rfl
      exact ⟨'\r', ['\n'], rfl, hb.next_eq⟩
  exact hr.lexemes_append

theorem filter_lexemes_dropWhile {p : Lexeme → Bool} (hp : ∀ w, p ⟨.ws, w⟩ = false)
    (s : List Char) : (L.lexemes (s.dropWhile isBlank)).filter p = (L.lexemes s).filter p := by
  cases s with
  | nil => rfl
  | cons c s =>
    by_cases hc : isBlank c = true
    · have hs := lexemes_blanks (L := L) (List.cons_ne_nil c [])
        (fun d hd => by rw [List.mem_singleton.1 hd]; exact hc) s
      rw [List.dropWhile_cons_of_pos hc, ← List.singleton_append, hs,
        List.filter_cons_of_neg (by rw [hp]; exact Bool.false_ne_true)]
    · rw [List.dropWhile_cons_of_neg hc]

/-- **Blanks in front of a text do not count.**  They are white space, alone or together with the
blanks that the text starts with. -/
theorem filter_lexemes_blanks {p : Lexeme → Bool} (hp : ∀ w, p ⟨.ws, w⟩ = false) {b : List Char}
    (hb : ∀ c ∈ b, isBlank c = true) (s : List Char) :
    (L.lexemes (b ++ s)).filter p = (L.lexemes s).filter p := by
  rw [← filter_lexemes_dropWhile hp (b ++ s), ← filter_lexemes_dropWhile hp s,
    List.dropWhile_append_of_pos hb]

/-- **A line break and blanks between two lexemes leave the reading as it was.**  The lexemes before
the break stay by a cut, and those behind it are read as if nothing stood before. -/
theorem reading_insert_break (hL : L.Regular) {without : List TokenKind} (hws : .ws ∈ without)
    (hnl : .newline ∈ without) (heof : .eof ∈ without) {s b : List Char} {A B : List Lexeme}
    (h : L.lexemes s = A ++ B) (hb : ∀ c ∈ b, isBlank c = true)
    (hr : (spell A).getLast? ≠ some '\r')
    (hc : ∀ A₁ l, A = A₁ ++ [l] → l.kind = .blockComment → B = [] → L.Closes l.text) :
    L.reading without (spell A ++ '\n' :: (b ++ spell B)) = L.reading without s := by
  have hcut := lexemes_cut hL h (v := '\n' :: (b ++ spell B)) (.inr rfl) (fun _ => hr)
    fun A₁ l hA hk hB => .inr (hc A₁ l hA hk hB)
  have hp : ∀ w, decide ((⟨.ws, w⟩ : Lexeme).kind ∉ without) = false := fun w => by simpa using hws
  have hbreak := L.lexemes_break (.inl rfl) (b ++ spell B)
  rw [List.singleton_append] at hbreak
  rw [reading_eq_filter L heof, reading_eq_filter L heof, hcut, hbreak, h,
    List.filter_append, List.filter_append, List.filter_cons_of_neg (by simpa using hnl),
    filter_lexemes_blanks hp hb, (lexemes_eq_append h).2]

/-! ## 2. The text of layout

Conversely, a text of which every character is layout is covered by lexemes of white space and line
breaks, where it starts at a boundary. -/

/-- The text of white space and line breaks: blanks, line feeds, and carriage returns that belong
to a line feed. -/
def IsLayout (s : List Char) : Prop :=
  ∀ u c v, s = u ++ c :: v → isBlank c = true ∨ c = '\n' ∨ c = '\r' ∧ v.head? = some '\n'

theorem isLayout_of_blanks {s : List Char} (h : ∀ c ∈ s, isBlank c = true) : IsLayout s := by
  rintro u c v rfl
  exact .inl (h c (by simp))

theorem isLayout_break {br : List Char} (hbr : br = ['\n'] ∨ br = ['\r', '\n']) :
    IsLayout br := by
  intro u c v h
  rcases hbr with rfl | rfl
  · match u with
    | [] => exact .inr (.inl (List.cons.inj h).1.symm)
    | d :: u => simp at h
  · match u with
    | [] =>
      obtain ⟨rfl, rfl⟩ := List.cons.inj h
      exact .inr (.inr ⟨rfl, rfl⟩)
    | [d] =>
      obtain ⟨rfl, -⟩ := List.cons.inj (List.cons.inj h).2
      exact .inr (.inl rfl)
    | d :: e :: u => simp at h

theorem IsLayout.append {s t : List Char} (hs : IsLayout s) (ht : IsLayout t) :
    IsLayout (s ++ t) := by
  intro u c v h
  rcases List.append_eq_append_iff.1 h with ⟨x, rfl, hx⟩ | ⟨x, hx, hx'⟩
  · exact ht x c v hx
  · cases x with
    | nil => exact ht [] c v hx'.symm
    | cons d x =>
      obtain ⟨rfl, rfl⟩ := List.cons.inj hx'
      refine (hs u c x hx).imp id (.imp id (And.imp id ?_))
      intro hn
      cases x with
      | nil => cases hn
      | cons e x => exact hn

/-- Lexemes that are white space or line breaks make up layout.  A carriage return stands only at
the start of a break, and its line feed is in the same lexeme. -/
theorem isLayout_spell {s : List Char} {A B W : List Lexeme} (h : L.lexemes s = A ++ W ++ B)
    (hW : ∀ w ∈ W, w.kind ∈ [.ws, .newline]) : IsLayout (spell W) := by
  induction W generalizing A with
  | nil => exact isLayout_of_blanks nofun
  | cons w W ih =>
    have hr : L.Reads w (spell (W ++ B)) := reads_of_lexemes (A := A) (s := s) (by rw [h]; simp)
    rw [Lexeme.spell_cons]
    refine IsLayout.append ?_ (ih (A := A ++ [w]) (by rw [h]; simp)
      fun v hv => hW v (List.mem_cons_of_mem _ hv))
    have hk := hW w List.mem_cons_self
    simp only [List.mem_cons, List.not_mem_nil, or_false] at hk
    rcases hk with hk | hk
    · exact isLayout_of_blanks (hr.isBlank_of_ws hk)
    · exact isLayout_break (hr.text_of_newline hk)

/-- On its last line, layout is made of blanks; a carriage return there would need a line feed
behind it. -/
theorem IsLayout.isBlank {x b z : List Char} (h : IsLayout (x ++ b ++ z)) (hb : '\n' ∉ b)
    (hz : z.head? ≠ some '\n') : ∀ c ∈ b, isBlank c = true := by
  intro c hc
  obtain ⟨b, b', rfl⟩ := List.append_of_mem hc
  rcases h (x ++ b) c (b' ++ z) (by simp) with h | rfl | ⟨-, hn⟩
  · exact h
  · exact absurd hc hb
  · cases b' with
    | nil => exact absurd hn hz
    | cons d b' =>
      obtain rfl := Option.some.inj hn
      exact absurd (by simp) hb

theorem IsLayout.of_append {v w : List Char} (h : IsLayout (v ++ w)) : IsLayout w := by
  rintro u c z rfl
  exact h (v ++ u) c z (by simp)

/-- A line of layout is layout with the line feed that ends it, and no more of the text is needed
for that. -/
theorem IsLayout.line {v x w : List Char} (h : IsLayout (v ++ x ++ w)) (hx : '\n' ∉ x) :
    IsLayout (x ++ ['\n']) := by
  intro u c z hz
  rcases List.eq_nil_or_concat z with rfl | ⟨z, e, rfl⟩
  · obtain ⟨-, hc⟩ := List.append_inj' hz rfl
    exact .inr (.inl (List.cons.inj hc).1.symm)
  · rw [List.concat_eq_append, ← List.cons_append, ← List.append_assoc] at hz
    obtain ⟨rfl, he⟩ := List.append_inj' hz rfl
    obtain rfl := (List.cons.inj he).1
    rcases h (v ++ u) c (z ++ w) (by simp) with hc | rfl | ⟨hc, hn⟩
    · exact .inl hc
    · exact absurd (by simp) hx
    · refine .inr (.inr ⟨hc, ?_⟩)
      cases z with
      | nil => rfl
      | cons f z =>
        obtain rfl := Option.some.inj hn
        exact absurd (by simp) hx

/-- The end of a line break and the blanks behind it is covered by layout. -/
theorem exists_layout_covering (L : Lexis) {br b : List Char}
    (hbr : br = ['\n'] ∨ br = ['\r', '\n']) (hb : ∀ c ∈ b, isBlank c = true) (r : List Char) :
    ∃ W l B, L.lexemes (br ++ (b ++ r)) = W ++ l :: B ∧
      (∀ w ∈ W ++ [l], w.kind ∈ [.ws, .newline]) ∧ (spell W).length < (br ++ b).length ∧
      (br ++ b).length ≤ (spell (W ++ [l])).length := by
  have hpos : 0 < br.length := by
    rcases hbr with rfl | rfl <;> decide
  by_cases hne : b = []
  · subst hne
    exact ⟨[], ⟨.newline, br⟩, L.lexemes r, L.lexemes_break hbr r, by simp, by simpa using hpos,
      by simp⟩
  · refine ⟨[⟨.newline, br⟩], ⟨.ws, b ++ r.takeWhile isBlank⟩, L.lexemes (r.dropWhile isBlank), ?_,
      by simp, ?_, by simp⟩
    · rw [L.lexemes_break hbr, lexemes_blanks hne hb]
      rfl
    · simpa using List.length_pos_iff.2 hne

end Lexis

end SmartEnter
