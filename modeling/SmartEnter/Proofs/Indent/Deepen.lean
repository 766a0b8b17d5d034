/-
# An indent and one level more

`deepen` puts one level behind an indent: copies of one character.  Which character it is, the
indents say that are there already, the indent itself before those of the lines; the first one that
is not empty counts (`Shows`).  How many copies there are, the options say (`IsLevel`): a space for
each column, or the least number of tabs that cover the columns.

The count of tabs is rounded up, so a level may be wider than its size, though by less than one
tab.  Both bounds on the count carry over to the widths, since widths add up (`deeper_of_isLevel`).
What comes out is all determined by that, the failures too: it is the indent with the level behind
it exactly if so many characters fit into a text (`deepen_eq_append_level`).

A new indent is wider than the old one with tabs of any width, not only with the width of the
options.  So a level stays one where another editor shows tabs otherwise.
-/
import Mathlib.Order.Bounds.Basic
import SmartEnter.Proofs.Document.Partition
import SmartEnter.Proofs.Indent.Level

namespace SmartEnter

open Text (isBlank sourceLines)

variable {d : Document} {old seen : List Char}

/-! ## 1. The indent that shows the style

The lines are gone through from the first one on, and a line counts if it starts with blanks, also
where it has nothing else. -/

namespace Document

/-- The indents of the lines of a text are those of the lines of the document. -/
theorem map_indent_sourceLines (d : Document) :
    (sourceLines d.text).map (·.content.takeWhile isBlank) =
      (List.range d.lineCount).map d.indentOf := by
  have hlength : ((sourceLines d.text).map (·.content.takeWhile isBlank)).length =
      ((List.range d.lineCount).map d.indentOf).length := by
    rw [List.length_map, List.length_map, List.length_range, length_sourceLines]
  refine List.ext_getElem hlength fun n hn _ => ?_
  rw [List.length_map, length_sourceLines] at hn
  obtain ⟨_, hline⟩ := List.getElem?_eq_some_iff.1 (getElem?_sourceLines hn)
  rw [List.getElem_map, List.getElem_map, List.getElem_range, hline, indentOf]

end Document

namespace Indent

/-- The indent that the style of `old` is read off: `old` itself if it is one, else the indent of
the first line that has one, and nothing if no line has one. -/
inductive Shows (old : List Char) (d : Document) : List Char → Prop where
  | own (hold : old ≠ []) : Shows old d old
  | line {n : Nat} {indent : List Char} (hold : old = []) (hline : d.lineIndent n = .ok indent)
      (hindent : indent ≠ []) (habove : ∀ m < n, d.lineIndent m = .ok []) :
      Shows old d indent
  | nothing (hold : old = []) (hlines : ∀ n < d.lineCount, d.lineIndent n = .ok []) :
      Shows old d []

/-- **The style is read off** the first indent that is not empty, and there is always an answer, if
only that no line has one. -/
theorem shows_ofDocument (old : List Char) (d : Document) :
    Shows old d (if old = [] then ofDocument d else old) := by
  by_cases hold : old = []
  · rw [if_pos hold, ofDocument, Document.map_indent_sourceLines, List.find?_map]
    have hempty : ∀ n < d.lineCount, (!(decide (d.indentOf n ≠ []))) = true →
        d.lineIndent n = .ok [] := by
      intro n hn hnil
      rw [Bool.not_eq_true', decide_eq_false_iff_not, not_not] at hnil
      rw [Document.lineIndent_natCast hn, hnil]
    cases hfind : (List.range d.lineCount).find? ((fun i => decide (i ≠ [])) ∘ d.indentOf) with
    | none =>
      rw [List.find?_range_eq_none] at hfind
      exact .nothing hold fun n hn => hempty n hn (hfind n hn)
    | some n =>
      obtain ⟨hne, hn, habove⟩ := List.find?_range_eq_some.1 hfind
      rw [List.mem_range] at hn
      exact .line hold (Document.lineIndent_natCast hn) (of_decide_eq_true hne)
        fun m hm => hempty m (Nat.lt_trans hm hn) (habove m hm)
  · rw [if_neg hold]
    exact .own hold

/-! ## 2. The level

What a level is made of is said with the least number of tabs, without mention of how it is
calculated. -/

/-- One level in the style of the indent `seen`: so many copies of a character.  Without an indent
the options choose the character. -/
inductive IsLevel (options : Options) (seen : List Char) : Char → Nat → Prop where
  | spaces {k : Nat} (hstyle : seen.getLast? = some ' ' ∨ seen = [] ∧ options.useTabs = false)
      (hcount : (k : Int) = options.size) : IsLevel options seen ' ' k
  | tabs {k : Nat}
      (hstyle : seen ≠ [] ∧ seen.getLast? ≠ some ' ' ∨ seen = [] ∧ options.useTabs = true)
      (hcount : IsLeast {k : Nat | 0 < k ∧ options.size ≤ k * options.tabSize} k) :
      IsLevel options seen '\t' k

variable {options : Options} {c : Char} {k : Nat}

/-- The tabs that are counted are as few as will do: with one tab less they would not cover the
size. -/
theorem isLeast_tabs (hpos : options.Positive) (hle : options.size ≤ k * options.tabSize)
    (hlt : k * options.tabSize < options.size + options.tabSize) :
    IsLeast {k : Nat | 0 < k ∧ options.size ≤ k * options.tabSize} k := by
  have hsize := hpos.size
  constructor
  · refine ⟨Nat.pos_of_ne_zero ?_, hle⟩
    rintro rfl
    omega
  · rintro m ⟨-, hm⟩
    rw [← Nat.not_lt]
    intro hmk
    have hmul : ((m : Int) + 1) * options.tabSize ≤ k * options.tabSize :=
      Int.mul_le_mul_of_nonneg_right (by omega) (Int.le_of_lt hpos.tabSize)
    rw [Int.add_mul] at hmul
    omega

theorem style_of_usesTabs_eq_false (h : usesTabs seen options = false) :
    seen.getLast? = some ' ' ∨ seen = [] ∧ options.useTabs = false := by
  rw [usesTabs] at h
  cases hlast : seen.getLast? with
  | none =>
    rw [hlast] at h
    exact .inr ⟨List.getLast?_eq_none_iff.1 hlast, h⟩
  | some c =>
    rw [hlast, decide_eq_false_iff_not, not_not] at h
    exact .inl (congrArg some h)

theorem style_of_usesTabs_eq_true (h : usesTabs seen options = true) :
    seen ≠ [] ∧ seen.getLast? ≠ some ' ' ∨ seen = [] ∧ options.useTabs = true := by
  rw [usesTabs] at h
  cases hlast : seen.getLast? with
  | none =>
    rw [hlast] at h
    exact .inr ⟨List.getLast?_eq_none_iff.1 hlast, h⟩
  | some c =>
    rw [hlast, decide_eq_true_iff] at h
    refine .inl ⟨?_, fun hspace => h (Option.some.inj hspace)⟩
    rintro rfl
    cases hlast

/-- A level is a character that is repeated.  The number of copies is that of the options for
spaces, and for tabs it is rounded up. -/
theorem exists_isLevel [Text.Memory] (hpos : options.Positive) (seen : List Char) :
    ∃ c k, IsLevel options seen c k ∧
      level (usesTabs seen options) options = (Text.repeated k c).mapError .width := by
  cases htabs : usesTabs seen options with
  | false =>
    have hcount := Int.toNat_of_nonneg (Int.le_of_lt hpos.size)
    refine ⟨' ', options.size.toNat, .spaces (style_of_usesTabs_eq_false htabs) hcount, ?_⟩
    rw [level, if_neg Bool.false_ne_true, hcount]
  | true =>
    obtain ⟨k, hk, hle, hlt⟩ := exists_tabCount hpos.size hpos.tabSize
    exact ⟨'\t', k, .tabs (style_of_usesTabs_eq_true htabs) (isLeast_tabs hpos hle hlt),
      level_true hk⟩

/-- A level is made of spaces or of tabs, and its width is its size, rounded up to full tabs.  A
space is as wide as one column. -/
theorem IsLevel.width (hpos : options.Positive) (h : IsLevel options seen c k) :
    0 < k ∧ options.size ≤ k * (if c = '\t' then options.tabSize else 1) ∧
      k * (if c = '\t' then options.tabSize else 1) < options.size + options.tabSize := by
  have hsize := hpos.size
  have htab := hpos.tabSize
  cases h with
  | spaces _ hcount =>
    rw [if_neg (by decide), Int.mul_one, hcount]
    omega
  | tabs _ hcount =>
    obtain ⟨n, -, hle, hlt⟩ := exists_tabCount hsize htab
    rw [if_pos rfl, hcount.unique (isLeast_tabs hpos hle hlt)]
    exact ⟨(isLeast_tabs hpos hle hlt).1.1, hle, hlt⟩

/-! ## 3. The deeper indent -/

theorem displayWidth_replicate (k : Nat) (c : Char) (w : Int) :
    displayWidth (List.replicate k c) w = k * (if c = '\t' then w else 1) := by
  induction k with
  | zero => rw [List.replicate_zero, displayWidth_nil, Int.natCast_zero, Int.zero_mul]
  | succ k ih =>
    rw [List.replicate_succ, displayWidth_cons, ih, Int.natCast_succ, Int.add_mul, Int.one_mul,
      Int.add_comm]

/-- An indent is one level deeper than another one: wider by the size of a level and less than one
tab, and wider too where tabs have another width. -/
structure Deeper (options : Options) (old new : List Char) : Prop where
  covers : options.size ≤ displayWidth new options.tabSize - displayWidth old options.tabSize
  rounded : displayWidth new options.tabSize - displayWidth old options.tabSize <
    options.size + options.tabSize
  wider : ∀ w : Int, 1 ≤ w → displayWidth old w < displayWidth new w

/-- **A level makes an indent deeper.**  The width of the indent with the level is the sum of both
widths, because blanks are counted one by one. -/
theorem deeper_of_isLevel (hpos : options.Positive) (h : IsLevel options seen c k)
    (old : List Char) : Deeper options old (old ++ List.replicate k c) := by
  obtain ⟨hk, hle, hlt⟩ := h.width hpos
  have hadd : ∀ w, displayWidth (old ++ List.replicate k c) w =
      displayWidth old w + k * (if c = '\t' then w else 1) := fun w => by
    rw [displayWidth_append, displayWidth_replicate]
  refine ⟨?_, ?_, fun w hw => ?_⟩
  · rw [hadd]
    omega
  · rw [hadd]
    omega
  · have hwidth : 0 < (k : Int) * (if c = '\t' then w else 1) :=
      Int.mul_pos (by omega) (by split <;> omega)
    rw [hadd]
    omega

/-- **`deepen` adds one level in the prevailing style**, if a text can hold it, and it names what
is wrong with the number of characters if none can. -/
theorem deepen_eq_append_level [Text.Memory] (hpos : options.Positive) (old : List Char)
    (d : Document) :
    ∃ seen c k, Shows old d seen ∧ IsLevel options seen c k ∧
      Deeper options old (old ++ List.replicate k c) ∧
      deepen old d options =
        if ¬Text.IsIndex k then .error (.width .noCount)
        else if Text.Memory.limit < k then .error (.width .outOfMemory)
        else .ok (old ++ List.replicate k c) := by
  obtain ⟨c, k, hlevel, heq⟩ :=
    exists_isLevel hpos (if old = [] then ofDocument d else old)
  refine ⟨_, c, k, shows_ofDocument old d, hlevel, deeper_of_isLevel hpos hlevel old, ?_⟩
  rw [deepen, heq, Text.repeated, Int.toNat_natCast]
  split
  · rfl
  · split
    · rw [if_pos (by omega)]
      rfl
    · rw [if_neg (by omega)]
      rfl

/-- Two tabs of four columns are the fewest that cover five. -/
theorem deepen_eq_append_level_of_tabs :
    let _ := Text.Memory.kilobyte
    let options : Options := { size := 5 }
    let d : Document := { text := ['\t', 'x', '\n', ' ', 'y'] }
    options.Positive ∧ deepen [] d options = .ok ['\t', '\t'] ∧
      ∃ seen c k, Shows [] d seen ∧ IsLevel options seen c k ∧
        Deeper options [] ([] ++ List.replicate k c) ∧
        deepen [] d options =
          if ¬Text.IsIndex k then .error (.width .noCount)
          else if Text.Memory.limit < k then .error (.width .outOfMemory)
          else .ok ([] ++ List.replicate k c) := by
  intro _ options d
  have hpos : options.Positive := ⟨by decide, by decide⟩
  exact ⟨hpos, by decide, deepen_eq_append_level hpos [] d⟩

/-- No text has as many spaces as a level may have columns.  The size is accepted, and the level is
no text on any machine. -/
theorem deepen_too_wide :
    let _ := Text.Memory.kilobyte
    let options : Options := { size := 0x8000000000000000 }
    options.Positive ∧
      deepen [] { text := ['{'] } options = .error (.width .noCount) ∧
      ¬∃ k c, deepen [] { text := ['{'] } options = .ok (List.replicate k c) := by
  intro _ options
  have hdeepen : deepen [] { text := ['{'] } options = .error (.width .noCount) := by decide
  refine ⟨⟨by decide, by decide⟩, hdeepen, ?_⟩
  rintro ⟨k, c, h⟩
  rw [hdeepen] at h
  cases h

end Indent

end SmartEnter
