/-
# Levels that can be written

A level of an indent is a run of spaces or of tabs (`eq_of_mem_level`).  It cannot be written if
tabs have no width or if the run is too long for a text.  With positive sizes only the second can
happen (`width_of_deepen_eq_error`), and tabs take no more characters than spaces
(`exists_tabCount_le`), so a level that is narrow enough can always be written (`exists_level`,
`exists_deepen`).

The document has a say only where no indent is, and then by the first indent that it shows.  Two
documents that show the same one are deepened alike (`deepen_congr`), and this is all that the
decision about a key needs to know of the rest of a document.
-/
import SmartEnter.Indent

namespace SmartEnter

namespace Indent

variable {options : Options}

/-- Levels and tabs have a width.  Settings that are accepted always say so. -/
structure Options.Positive (options : Options) : Prop where
  size : 0 < options.size
  tabSize : 0 < options.tabSize

theorem Options.positive_default : ({} : Options).Positive := ⟨by decide, by decide⟩

/-- **The tabs that are counted** cover a level, and they do so by less than one tab.  There is at
least one of them, since the size is not zero. -/
theorem exists_tabCount (hsize : 0 < options.size) (htab : 0 < options.tabSize) :
    ∃ n : Nat, tabCount options.size options.tabSize = .ok n ∧
      options.size ≤ n * options.tabSize ∧
      n * options.tabSize < options.size + options.tabSize := by
  have hdiv := Int.mul_ediv_add_emod options.size options.tabSize
  have hmod := Int.emod_nonneg options.size (Int.ne_of_gt htab)
  have hlt := Int.emod_lt_of_pos options.size htab
  have hnonneg := Int.ediv_nonneg (Int.le_of_lt hsize) (Int.le_of_lt htab)
  rw [tabCount, if_neg (Int.ne_of_gt htab), Int.fdiv_eq_ediv_of_nonneg _ (Int.le_of_lt htab),
    Int.fmod_eq_emod_of_nonneg _ (Int.le_of_lt htab)]
  refine ⟨_, rfl, ?_⟩
  rw [Int.toNat_of_nonneg (by omega)]
  split
  case isTrue =>
    -- A level is not empty, so tabs that cover it exactly are not none.
    have hpos : 0 < options.size / options.tabSize := by
      rcases Int.lt_or_eq_of_le hnonneg with hpos | hzero
      · exact hpos
      · rw [← hzero, Int.mul_zero] at hdiv
        omega
    rw [Int.max_eq_right (by omega), Int.mul_comm]
    omega
  case isFalse =>
    rw [Int.max_eq_right (by omega), Int.add_mul, Int.mul_comm (options.size / options.tabSize)]
    omega

/-- A level takes no more tabs than columns, so a level that can be written in spaces can be written
in tabs. -/
theorem exists_tabCount_le (hsize : 0 < options.size) (htab : 0 < options.tabSize) :
    ∃ n, tabCount options.size options.tabSize = .ok n ∧ (n : Int) ≤ options.size := by
  obtain ⟨n, hn, -, hlt⟩ := exists_tabCount hsize htab
  refine ⟨n, hn, Int.not_lt.1 fun h => ?_⟩
  have hle : options.size * 1 ≤ ((n : Int) - 1) * options.tabSize :=
    Int.mul_le_mul (by omega) htab (by omega) (by omega)
  rw [Int.sub_mul] at hle
  omega

/-- The character that a level is written with, for each of the two styles. -/
def levelChar (tabs : Bool) : Char := if tabs then '\t' else ' '

theorem isBlank_levelChar (tabs : Bool) : Text.isBlank (levelChar tabs) = true := by
  cases tabs <;> rfl

variable [Text.Memory]

theorem level_true {n : Nat} (hn : tabCount options.size options.tabSize = .ok n) :
    level true options = (Text.repeated n '\t').mapError .width := by
  rw [level, if_pos rfl, hn]
  exact pure_bind n _

theorem eq_of_mem_repeated {n : Int} {c : Char} {s : List Char}
    (h : (Text.repeated n c).mapError Failure.width = .ok s) : ∀ x ∈ s, x = c := by
  cases hr : Text.repeated n c with
  | error f =>
    rw [hr] at h
    cases h
  | ok u =>
    rw [hr] at h
    cases h
    intro x hx
    rw [Text.eq_replicate_of_repeated hr] at hx
    exact List.eq_of_mem_replicate hx

/-- A level is written with one character. -/
theorem eq_of_mem_level {tabs : Bool} {s : List Char} (h : level tabs options = .ok s) :
    ∀ x ∈ s, x = levelChar tabs := by
  cases tabs with
  | false =>
    rw [level, if_neg Bool.false_ne_true] at h
    exact eq_of_mem_repeated h
  | true =>
    cases ht : tabCount options.size options.tabSize with
    | error f =>
      rw [level, if_pos rfl, ht] at h
      cases h
    | ok count =>
      rw [level_true ht] at h
      exact eq_of_mem_repeated h

theorem exists_level_of_deepen {old new : List Char} {d : Document}
    (h : deepen old d options = .ok new) :
    ∃ s, level (usesTabs (if old = [] then ofDocument d else old) options) options = .ok s ∧
      new = old ++ s := by
  rw [deepen] at h
  cases hl : level (usesTabs (if old = [] then ofDocument d else old) options) options with
  | error f =>
    rw [hl] at h
    cases h
  | ok s =>
    rw [hl] at h
    exact ⟨s, rfl, (Except.ok.inj h).symm⟩

/-- **A level of positive sizes can be written**, if it is not too wide for a text. -/
theorem exists_level (hsize : 0 < options.size) (htab : 0 < options.tabSize)
    (hwidth : options.size ≤ Text.Memory.limit) (tabs : Bool) :
    ∃ s, level tabs options = .ok s := by
  cases tabs with
  | false =>
    have hr := Text.repeated_natCast (Int.toNat_le.2 hwidth) ' '
    rw [Int.toNat_of_nonneg (Int.le_of_lt hsize)] at hr
    rw [level, if_neg Bool.false_ne_true, hr]
    exact ⟨_, rfl⟩
  | true =>
    obtain ⟨n, hn, hle⟩ := exists_tabCount_le hsize htab
    have hr := Text.repeated_natCast (Int.ofNat_le.1 (Int.le_trans hle hwidth)) '\t'
    rw [level_true hn, hr]
    exact ⟨_, rfl⟩

theorem exists_deepen (hsize : 0 < options.size) (htab : 0 < options.tabSize)
    (hwidth : options.size ≤ Text.Memory.limit) (old : List Char) (d : Document) :
    ∃ s, deepen old d options = .ok s := by
  obtain ⟨s, hs⟩ := exists_level hsize htab hwidth
    (usesTabs (if old = [] then ofDocument d else old) options)
  rw [deepen, hs]
  exact ⟨_, rfl⟩

/-- A level of positive sizes is a number of characters, so it fails only by that number. -/
theorem exists_width_of_level_eq_error {f : Failure} {tabs : Bool} (hpos : options.Positive)
    (h : level tabs options = .error f) : ∃ w, f = .width w := by
  have hrepeated : ∃ n c, (Text.repeated n c).mapError Failure.width = .error f := by
    cases tabs with
    | false =>
      rw [level, if_neg Bool.false_ne_true] at h
      exact ⟨_, _, h⟩
    | true =>
      obtain ⟨n, hn, -⟩ := exists_tabCount_le hpos.size hpos.tabSize
      rw [level_true hn] at h
      exact ⟨_, _, h⟩
  obtain ⟨n, c, hn⟩ := hrepeated
  cases hr : Text.repeated n c with
  | error w =>
    rw [hr] at hn
    cases hn
    exact ⟨w, rfl⟩
  | ok s =>
    rw [hr] at hn
    cases hn

/-- **A level of positive sizes fails only by its width**, which is then too great for a text.  A
level in tabs may succeed where one in spaces fails, but not the other way round. -/
theorem width_of_deepen_eq_error {old : List Char} {d : Document} {f : Failure}
    (hpos : options.Positive) (h : deepen old d options = .error f) :
    (∃ w, f = .width w) ∧ Text.Memory.limit < options.size := by
  constructor
  · rw [deepen] at h
    cases hl : level (usesTabs (if old = [] then ofDocument d else old) options) options with
    | error g =>
      rw [hl] at h
      cases h
      exact exists_width_of_level_eq_error hpos hl
    | ok s =>
      rw [hl] at h
      cases h
  · rw [← Int.not_le]
    intro hle
    obtain ⟨s, hs⟩ := exists_deepen hpos.size hpos.tabSize hle old d
    rw [hs] at h
    cases h

/-- The document counts only where no indent is, and by the indent that it shows. -/
theorem deepen_congr {old : List Char} {d d' : Document}
    (h : old = [] → ofDocument d = ofDocument d') :
    deepen old d options = deepen old d' options := by
  rw [deepen, deepen]
  by_cases hold : old = []
  · rw [if_pos hold, if_pos hold, h hold]
  · rw [if_neg hold, if_neg hold]

end Indent

end SmartEnter
