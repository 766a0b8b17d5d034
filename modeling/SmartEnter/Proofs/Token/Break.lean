/-
# Up to the next line break

A line breaks at a line feed, and at a carriage return that a line feed follows.  `Unbroken t y`
says that no break starts in `t` when `y` stands behind it: `t` has no line feed, and its last
character is no carriage return that `y` makes a break of.

Up to the next break, an unbroken text is passed whole (`untilBreak_append`), and conversely what is
passed whole is unbroken (`unbroken_of_untilBreak`).

Whether a text is unbroken may depend on what stands behind it, though only on its first character,
and only if the text ends with a carriage return.  Most texts that are put in front of something do
not end so: blanks never do (`unbroken_of_isBlank`), nor do texts without carriage returns
(`unbroken_of_not_mem`).
-/
import SmartEnter.Token.Lexis
import Mathlib.Data.List.Basic

namespace SmartEnter

namespace Text

theorem isBreak_cons_iff {c : Char} {s : List Char} :
    isBreak (c :: s) = true ↔ c = '\n' ∨ c = '\r' ∧ s.head? = some '\n' := by
  constructor
  · intro h
    unfold isBreak at h
    split at h
    · next heq => exact .inl (List.cons.inj heq).1
    · next heq =>
      obtain ⟨rfl, rfl⟩ := List.cons.inj heq
      exact .inr ⟨rfl, rfl⟩
    · cases h
  · rintro (rfl | ⟨rfl, h⟩)
    · rfl
    · cases s with
      | nil => cases h
      | cons d s =>
        obtain rfl := Option.some.inj h
        rfl

theorem isBreak_of_isBlank {c : Char} (hc : isBlank c = true) (s : List Char) :
    isBreak (c :: s) = false := by
  rw [← Bool.not_eq_true, isBreak_cons_iff]
  rintro (rfl | ⟨rfl, -⟩) <;> cases hc

/-- A break that starts in a text ends in it, unless the rest starts with its line feed. -/
theorem newline_mem_of_isBreak {x r : List Char} (hx : x ≠ []) (hb : isBreak (x ++ r) = true)
    (hr : r.head? ≠ some '\n') : '\n' ∈ x := by
  cases x with
  | nil => exact absurd rfl hx
  | cons c x =>
    rcases isBreak_cons_iff.1 hb with rfl | ⟨rfl, hn⟩
    · exact List.mem_cons_self
    · cases x with
      | nil => exact absurd hn hr
      | cons d x =>
        obtain rfl := Option.some.inj hn
        simp

theorem count_break {br : List Char} (h : br = ['\n'] ∨ br = ['\r', '\n']) :
    br.count '\n' = 1 := by
  rcases h with rfl | rfl <;> decide

theorem not_mem_of_isBlank {b : List Char} (hb : ∀ c ∈ b, isBlank c = true) : '\n' ∉ b := by
  intro h
  exact absurd (hb _ h) (by decide)

theorem not_mem_of_isBlank_or {s b t : List Char} (hb : ∀ c ∈ b, isBlank c = true) (ht : '\n' ∉ t)
    (hs : s = b ∨ s = b ++ t) : '\n' ∉ s := by
  rcases hs with rfl | rfl
  · exact not_mem_of_isBlank hb
  · simp [not_mem_of_isBlank hb, ht]

theorem count_of_isBlank {b : List Char} (hb : ∀ c ∈ b, isBlank c = true) : b.count '\n' = 0 :=
  List.count_eq_zero.2 (not_mem_of_isBlank hb)

/-- If the text goes on with a line break and passes one line feed, it passes the whole break,
because a break has its line feed at the end. -/
theorem exists_append_of_break {br x y r : List Char} (hbr : br = ['\n'] ∨ br = ['\r', '\n'])
    (h : br ++ y = x ++ r) (hx : '\n' ∈ x) : ∃ b, x = br ++ b ∧ y = b ++ r := by
  rcases List.append_eq_append_iff.1 h with ⟨b, hxb, hy⟩ | ⟨u, hbu, hr⟩
  · exact ⟨b, hxb, hy⟩
  · -- the line feed is the last character of the break
    obtain rfl : u = [] := by
      rcases hbr with rfl | rfl
      · match x with
        | [] => cases hx
        | c :: x => exact (List.append_eq_nil_iff.1 (List.cons.inj hbu).2.symm).2
      · match x with
        | [] => cases hx
        | [c] =>
          obtain ⟨rfl, -⟩ := List.cons.inj hbu
          simp at hx
        | c :: d :: x =>
          exact (List.append_eq_nil_iff.1 (List.cons.inj (List.cons.inj hbu).2).2.symm).2
    exact ⟨[], by simpa using hbu.symm, hr.symm⟩

/-- No line breaks in `t`, nor right behind it in the text `t ++ y` by a carriage return of `t`. -/
def Unbroken (t y : List Char) : Prop :=
  '\n' ∉ t ∧ (t.getLast? = some '\r' → y.head? ≠ some '\n')

@[simp] theorem unbroken_nil (y : List Char) : Unbroken [] y := ⟨List.not_mem_nil, nofun⟩

theorem unbroken_cons_iff {c : Char} {t y : List Char} :
    Unbroken (c :: t) y ↔ isBreak (c :: (t ++ y)) = false ∧ Unbroken t y := by
  rw [← Bool.not_eq_true, isBreak_cons_iff, Unbroken, Unbroken]
  cases t with
  | nil =>
    simp only [List.getLast?_singleton, List.nil_append, List.mem_singleton, Option.some.injEq,
      List.getLast?_nil, List.not_mem_nil]
    grind
  | cons d t =>
    rw [List.getLast?_cons_cons]
    simp only [List.mem_cons, List.cons_append, List.head?_cons, Option.some.injEq]
    grind

/-- Text without line feeds and carriage returns is never broken. -/
theorem unbroken_of_not_mem {t : List Char} (hn : '\n' ∉ t) (hr : '\r' ∉ t) (y : List Char) :
    Unbroken t y :=
  ⟨hn, fun h => absurd (List.mem_of_getLast? h) hr⟩

theorem unbroken_of_isBlank {b : List Char} (hb : ∀ c ∈ b, isBlank c = true) (y : List Char) :
    Unbroken b y := by
  refine unbroken_of_not_mem (not_mem_of_isBlank hb) (fun hr => ?_) y
  exact absurd (hb _ hr) (by decide)

theorem Unbroken.append {t u y : List Char} (ht : Unbroken t (u ++ y)) (hu : Unbroken u y) :
    Unbroken (t ++ u) y := by
  induction t with
  | nil => exact hu
  | cons c t ih =>
    obtain ⟨hb, ht⟩ := unbroken_cons_iff.1 ht
    rw [← List.append_assoc] at hb
    exact unbroken_cons_iff.2 ⟨hb, ih ht⟩

/-- What stands in front of an unbroken text does not matter at its end, unless the unbroken text is
empty. -/
theorem Unbroken.joint {p t y : List Char} (h : Unbroken t y) (ht : t ≠ []) :
    (p ++ t).getLast? = some '\r' → y.head? ≠ some '\n' := by
  rw [List.getLast?_append_of_ne_nil p ht]
  exact h.2

theorem Unbroken.of_append {t u y : List Char} (h : Unbroken (t ++ u) y) : Unbroken u y := by
  induction t with
  | nil => exact h
  | cons c t ih => exact ih (unbroken_cons_iff.1 h).2

theorem Unbroken.append_left {t u y : List Char} (h : Unbroken (t ++ u) y) :
    Unbroken t (u ++ y) := by
  refine ⟨fun hm => h.1 (List.mem_append_left u hm), fun hlast => ?_⟩
  cases u with
  | nil =>
    rw [List.append_nil] at h
    exact h.2 hlast
  | cons c u =>
    rintro ⟨⟩
    exact h.1 (List.mem_append_right t List.mem_cons_self)

end Text

open Text (isBlank isBreak isBreak_cons_iff Unbroken unbroken_cons_iff)

namespace Lexis

theorem untilBreak_eq_nil_iff {s : List Char} :
    untilBreak s = [] ↔ s = [] ∨ isBreak s = true := by
  cases s with
  | nil => simp [untilBreak]
  | cons c s =>
    unfold untilBreak
    split <;> simp_all

theorem head?_ne_of_untilBreak_ne_nil {r : List Char} (hr : untilBreak r ≠ []) :
    r.head? ≠ some '\n' := by
  intro hn
  cases r with
  | nil => cases hn
  | cons c r =>
    obtain rfl := Option.some.inj hn
    exact hr (untilBreak_eq_nil_iff.2 (.inr rfl))

/-- **Up to the next break an unbroken text is passed whole.**  By induction on the text; at each
character no break starts. -/
theorem untilBreak_append {t y : List Char} (h : Unbroken t y) :
    untilBreak (t ++ y) = t ++ untilBreak y := by
  induction t with
  | nil => rfl
  | cons c t ih =>
    obtain ⟨hb, ht⟩ := unbroken_cons_iff.1 h
    rw [List.cons_append, untilBreak, hb, if_neg Bool.false_ne_true, ih ht, List.cons_append]

theorem unbroken_of_untilBreak {t y : List Char} (h : untilBreak (t ++ y) = t) :
    Unbroken t y := by
  induction t with
  | nil => exact Text.unbroken_nil y
  | cons c t ih =>
    rw [List.cons_append, untilBreak] at h
    split at h
    · cases h
    · next hb =>
      exact unbroken_cons_iff.2 ⟨Bool.eq_false_iff.2 hb, ih (List.cons.inj h).2⟩

/-- A text is made up of what is passed and of the rest, where the break is, or the end of the
text. -/
theorem exists_eq_untilBreak_append (s : List Char) :
    ∃ z, s = untilBreak s ++ z ∧ Unbroken (untilBreak s) z ∧ untilBreak z = [] := by
  obtain ⟨z, hz⟩ := untilBreak_isPrefix s
  have hself : untilBreak (untilBreak s ++ z) = untilBreak s := by rw [hz]
  have hu := unbroken_of_untilBreak hself
  rw [untilBreak_append hu] at hself
  exact ⟨z, hz.symm, hu, List.append_right_eq_self.1 hself⟩

/-- A part of a line is passed whole exactly if it does not end inside the break.  So lengths
suffice to tell that a place lies on its line. -/
theorem length_le_untilBreak_iff {b r : List Char} :
    b.length ≤ (untilBreak (b ++ r)).length ↔ Unbroken b r := by
  constructor
  · intro hle
    obtain ⟨z, hs, hu, -⟩ := exists_eq_untilBreak_append (b ++ r)
    obtain ⟨x, hx⟩ := List.prefix_of_prefix_length_le (List.prefix_append b r) ⟨z, hs.symm⟩ hle
    rw [← hx] at hs hu
    rw [List.append_assoc] at hs
    rw [List.append_cancel_left hs]
    exact hu.append_left
  · intro h
    rw [untilBreak_append h, List.length_append]
    exact Nat.le_add_right _ _

/-- A text without line feeds and carriage returns lies before the first break. -/
theorem prefix_untilBreak {m s : List Char} (h : m <+: s) (hm : '\n' ∉ m ∧ '\r' ∉ m) :
    m <+: untilBreak s := by
  obtain ⟨r, rfl⟩ := h
  rw [untilBreak_append (Text.unbroken_of_not_mem hm.1 hm.2 r)]
  exact List.prefix_append m _

theorem not_mem_untilBreak (s : List Char) : '\n' ∉ untilBreak s := by
  induction s with
  | nil => exact List.not_mem_nil
  | cons c s ih =>
    unfold untilBreak
    split
    · exact List.not_mem_nil
    · next hb =>
      rw [List.mem_cons, not_or]
      refine ⟨?_, ih⟩
      rintro rfl
      exact hb rfl

/-- From a place before the break, what is passed is the rest of what is passed from the start. -/
theorem drop_untilBreak {b : List Char} (hb : '\n' ∉ b) (r : List Char) :
    (untilBreak (b ++ r)).drop b.length = untilBreak r := by
  induction b with
  | nil => rfl
  | cons c b ih =>
    rw [List.mem_cons, not_or] at hb
    rw [List.cons_append, untilBreak]
    split
    · next hc =>
      -- the break is made of `c` and the line feed that `r` starts with
      obtain ⟨rfl, hr⟩ := (isBreak_cons_iff.1 hc).resolve_left (Ne.symm hb.1)
      rw [List.drop_nil, eq_comm, untilBreak_eq_nil_iff]
      cases b with
      | nil =>
        cases r with
        | nil => exact .inl rfl
        | cons d r => exact .inr (isBreak_cons_iff.2 (.inl (Option.some.inj hr)))
      | cons d b =>
        obtain rfl := Option.some.inj hr
        exact absurd List.mem_cons_self hb.2
    · rw [List.length_cons, List.drop_succ_cons, ih hb.2]

end Lexis

end SmartEnter
