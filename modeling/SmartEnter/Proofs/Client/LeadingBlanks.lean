/-
# A line that starts with blanks

A client counts the columns of a line of its display in code units.  On a line that starts with
blanks each blank is one unit wide, so the column of a client as many units to the right as there
are blanks lies behind the blanks, if the display counts the lines above as the buffer does
(`columnOf_blanks`).

Two things have to come together for that.  The column has to be counted right on its line, which is
a law of every codec: blanks are one unit wide, and a column that the line has is found by counting.
And the line of that number has to be the right one.  The display and the buffer agree about the
lines of a text up to its last line feed if line feeds are the only terminators there; what the rest
of the text looks like does not matter, since the line is found behind what was agreed on.
-/
import SmartEnter.Client.OnEnter
import SmartEnter.Proofs.Document.DisplayLines

namespace SmartEnter

open Text (isBlank isTerminator splitLines joinBreaks Line Codec)

namespace Text

/-- The display has a line behind whole lines that starts like the rest of the text.  Blanks are no
terminators, so they all stand on one line. -/
theorem exists_full_of_blanks {b t : List Char} (hne : b ≠ []) (hb : ∀ c ∈ b, isBlank c = true) :
    ∃ l z, (splitLines (b ++ t)).head? = some l ∧ l.full = b ++ z := by
  induction b with
  | nil => exact absurd rfl hne
  | cons c b ih =>
    have hc : ¬isTerminator c = true := by
      have hblank := hb c List.mem_cons_self
      simp only [isBlank, Bool.or_eq_true, decide_eq_true_eq] at hblank
      rcases hblank with rfl | rfl <;> decide
    have hcr : c = '\r' → (b ++ t).head? ≠ some '\n' := by
      rintro rfl
      exact absurd (by decide) hc
    rw [List.cons_append, splitLines_cons hcr, if_neg hc]
    cases hlines : splitLines (b ++ t) with
    | nil =>
      obtain ⟨rfl, -⟩ := List.append_eq_nil_iff.1 (splitLines_eq_nil hlines)
      exact ⟨⟨[c], []⟩, [], rfl, rfl⟩
    | cons m lines =>
      by_cases hbne : b = []
      · subst hbne
        exact ⟨⟨c :: m.content, m.terminator⟩, m.full, rfl, rfl⟩
      · obtain ⟨l, z, hl, hfull⟩ := ih hbne fun d hd => hb d (List.mem_cons_of_mem _ hd)
        rw [hlines] at hl
        obtain rfl := Option.some.inj hl
        exact ⟨⟨c :: m.content, m.terminator⟩, z, rfl, congrArg (c :: ·) hfull⟩

theorem joinBreaks_append {b : List Char} (hb : '\r' ∉ b) (z : List Char) :
    joinBreaks (b ++ z) = b ++ joinBreaks z := by
  induction b with
  | nil => rfl
  | cons c b ih =>
    rw [List.cons_append, joinBreaks, ih fun h => hb (List.mem_cons_of_mem _ h), List.cons_append]
    rintro rest rfl -
    exact hb List.mem_cons_self

namespace Codec

theorem length_blanks (e : Codec) {b : List Char} (hb : ∀ c ∈ b, isBlank c = true) :
    e.length b = b.length := by
  induction b with
  | nil => rfl
  | cons c b ih =>
    rw [length_cons, e.units_blank c (hb c List.mem_cons_self),
      ih fun d hd => hb d (List.mem_cons_of_mem _ hd), List.length_cons, Nat.add_comm]

/-- The width of a text leads to its end: no character is left over, and none is cut in two. -/
theorem charsFor_length (e : Codec) (s : List Char) : e.charsFor (e.length s) s = s.length := by
  have h := e.charsFor_length_append s []
  rwa [List.append_nil] at h

/-- On a line that starts with blanks, the column behind them is found behind them, whatever the
codec does with columns that the line does not have. -/
theorem position_blanks (e : Codec) {b : List Char} (hb : ∀ c ∈ b, isBlank c = true)
    (z : List Char) : e.position (b ++ z) b.length = b.length := by
  have hlen := e.length_blanks hb
  have hcr : '\r' ∉ b := fun h => absurd (hb '\r' h) (by decide)
  have hjoin := joinBreaks_append hcr z
  have hwidth : b.length ≤ e.length (joinBreaks (b ++ z)) := by
    rw [hjoin, length_append, hlen]
    omega
  calc e.position (b ++ z) b.length
      = e.charsFor b.length (joinBreaks (b ++ z)) := e.position_of_le _ _ hwidth
    _ = e.charsFor (e.length b) (b ++ joinBreaks z) := by rw [hjoin, hlen]
    _ = b.length := e.charsFor_length_append b (joinBreaks z)

end Codec

end Text

namespace Client

/-- **The column of a client behind the blanks of a line lies behind the blanks.**  The lines above
are whole and have plain breaks; nothing is asked of what stands behind the blanks. -/
theorem columnOf_blanks (e : Codec) {a b t : List Char} (ha : StartsLine a)
    (hplain : Text.PlainBreaks a) (hb : ∀ c ∈ b, isBlank c = true) :
    columnOf e (a ++ (b ++ t)) ⟨a.count '\n', b.length⟩ = b.length := by
  have hline : (Text.splitLines (a ++ (b ++ t)))[a.count '\n']? = (splitLines (b ++ t)).head? := by
    rw [Text.splitLines_append ha, ← Text.length_splitLines ha hplain,
      List.getElem?_append_right (Nat.le_refl _), Nat.sub_self, List.head?_eq_getElem?]
  unfold columnOf
  dsimp only
  rw [hline]
  by_cases hne : b = []
  · subst hne
    cases (splitLines ([] ++ t)).head? with
    | none => rfl
    | some l => exact e.position_blanks (b := []) nofun l.full
  · obtain ⟨l, z, hl, hfull⟩ := Text.exists_full_of_blanks (t := t) hne hb
    rw [hl]
    dsimp only
    rw [hfull, e.position_blanks hb]

end Client

end SmartEnter
