/-
# Looking up a line by any number

The look-ups that take any integer agree, for the number of a line of the document, with those that
take nothing else: they find where the line starts and ends, its first character that is no blank,
its indent and its text.  A line and a column name a place of the text exactly if the line is there
and the column does not go past its end (`offsetAt_eq_ok_iff`).

The indent of a line is what the text has in blanks from the start of the line on, for a blank ends
no line (`takeWhile_untilBreak`, `indentOf_eq`).

So numbers below zero and numbers that are out of range have to be thought of here and nowhere else.
A caller that has the number of a line in hand rewrites the one kind of look-up to the other, and
the failure that the first kind may have is gone.
-/
import SmartEnter.Proofs.Document.Lines

namespace SmartEnter

open Lexis (untilBreak)
open Text (isBlank)

theorem Lexis.takeWhile_untilBreak (r : List Char) :
    (untilBreak r).takeWhile isBlank = r.takeWhile isBlank := by
  induction r with
  | nil => rfl
  | cons c r ih =>
    rw [untilBreak]
    cases hc : isBlank c with
    | false =>
      rw [List.takeWhile_cons_of_neg (Bool.eq_false_iff.1 hc)]
      split
      · rfl
      · exact List.takeWhile_cons_of_neg (Bool.eq_false_iff.1 hc)
    | true =>
      rw [Text.isBreak_of_isBlank hc, if_neg Bool.false_ne_true, List.takeWhile_cons_of_pos hc,
        List.takeWhile_cons_of_pos hc, ih]

namespace Document

variable {d : Document} {n : Nat} {a r : List Char}

theorem indentOf_eq (h : d.text = a ++ r) (ha : StartsLine a) :
    d.indentOf (a.count '\n') = r.takeWhile isBlank := by
  rw [indentOf, contentOf_eq h ha, Lexis.takeWhile_untilBreak]

theorem lineStarts_getElem? (hn : n < d.lineCount) : d.lineStarts[n]? = some (d.startOf n) := by
  rw [startOf, List.getD_eq_getElem?_getD, List.getElem?_eq_getElem hn, Option.getD_some]

theorem lineStart_natCast (hn : n < d.lineCount) : d.lineStart n = .ok (d.startOf n) := by
  have hnonneg : ¬(n : Int) < 0 := Int.not_lt.2 (Int.natCast_nonneg n)
  rw [lineStart, if_neg hnonneg, if_neg hnonneg, Int.toNat_natCast, lineStarts_getElem? hn]

/-- A line below the first one does not start where the text does, since a line feed stands before
it. -/
theorem startOf_succ_pos (hn : n + 1 < d.lineCount) : 0 < d.startOf (n + 1) := by
  rw [lineCount_eq_count] at hn
  obtain ⟨a, r, ht, ha, hcount⟩ := exists_startsLine (Nat.le_of_lt_succ hn)
  rw [← hcount, startOf_eq ht ha, List.length_pos_iff]
  rintro rfl
  cases hcount

theorem lineEnd_natCast (hn : n < d.lineCount) : d.lineEnd n = .ok (d.endOf n : Int) := by
  rw [lineEnd, endOf]
  by_cases hnext : n + 1 < d.lineCount
  · have hfollowing : d.lineStart ((n : Int) + 1) = .ok (d.startOf (n + 1)) :=
      lineStart_natCast (n := n + 1) hnext
    have hpos := startOf_succ_pos hnext
    rw [if_pos (by omega), hfollowing, lineStart_natCast hn, lineStarts_getElem? hnext]
    dsimp only [bind, Except.bind, pure, Except.pure]
    have hiff : ((d.startOf n : Int) < (d.startOf (n + 1) : Int) - 1 ∧
        d.text[d.startOf (n + 1) - 2]? = some '\r') ↔
        d.startOf n < d.startOf (n + 1) - 1 ∧ d.text[d.startOf (n + 1) - 2]? = some '\r' :=
      and_congr_left fun _ => by omega
    by_cases hcr : d.startOf n < d.startOf (n + 1) - 1 ∧
        d.text[d.startOf (n + 1) - 2]? = some '\r'
    · rw [if_pos (hiff.2 hcr), if_pos hcr]
      exact congrArg Except.ok (by omega)
    · rw [if_neg (mt hiff.1 hcr), if_neg hcr]
      exact congrArg Except.ok (by omega)
  · rw [if_neg (by omega), List.getElem?_eq_none (Nat.not_lt.1 hnext)]
    rfl

theorem firstNonBlank_natCast (hn : n < d.lineCount) :
    d.firstNonBlank n = .ok (d.startOf n + (d.indentOf n).length) := by
  rw [firstNonBlank, lineStart_natCast hn, lineEnd_natCast hn]
  rfl

theorem slice_startOf_add {k : Nat} (hn : n < d.lineCount) (hk : k ≤ (d.contentOf n).length) :
    Text.slice d.text (d.startOf n) ((d.startOf n + k : Nat) : Int) =
      (d.contentOf n).take k := by
  rw [lineCount_eq_count] at hn
  obtain ⟨a, r, ht, ha, rfl⟩ := exists_startsLine (Nat.le_of_lt_succ hn)
  have hprefix := Lexis.untilBreak_isPrefix r
  rw [contentOf_eq ht ha] at hk ⊢
  have hle : a.length + k ≤ d.text.length := by
    have := hprefix.length_le
    rw [ht, List.length_append]
    omega
  rw [startOf_eq ht ha, Text.slice, Text.bound_natCast hle, Text.bound_natCast (by omega), ht,
    List.take_length_add_append, List.drop_left]
  obtain ⟨z, hz⟩ := hprefix
  conv_lhs => rw [← hz, List.take_append_of_le_length hk]

theorem lineNumber_startOf_add {k : Nat} (hn : n < d.lineCount) (hk : k ≤ (d.contentOf n).length) :
    d.lineNumber ((d.startOf n + k : Nat) : Int) = n := by
  rw [lineCount_eq_count] at hn
  obtain ⟨a, r, ht, ha, rfl⟩ := exists_startsLine (Nat.le_of_lt_succ hn)
  rw [contentOf_eq ht ha] at hk
  obtain ⟨z, hz⟩ := Lexis.untilBreak_isPrefix r
  have hcut : d.text = a ++ (untilBreak r).take k ++ ((untilBreak r).drop k ++ z) := by
    rw [ht, List.append_assoc, ← List.append_assoc (List.take k _), List.take_append_drop, hz]
  have hb : '\n' ∉ (untilBreak r).take k :=
    fun hm => Lexis.not_mem_untilBreak r (List.mem_of_mem_take hm)
  have hline := lineNumber_eq hcut hb
  rwa [List.length_append, List.length_take_of_le hk, ← startOf_eq ht ha] at hline

theorem lineIndent_natCast (hn : n < d.lineCount) : d.lineIndent n = .ok (d.indentOf n) := by
  have hprefix : d.indentOf n <+: d.contentOf n := List.takeWhile_prefix _
  rw [lineIndent, lineStart_natCast hn, firstNonBlank_natCast hn]
  refine congrArg Except.ok ?_
  rw [slice_startOf_add hn hprefix.length_le]
  exact (List.prefix_iff_eq_take.1 hprefix).symm

theorem lineText_natCast (hn : n < d.lineCount) : d.lineText n = .ok (d.contentOf n) := by
  rw [lineText, lineStart_natCast hn, lineEnd_natCast hn]
  refine congrArg Except.ok ?_
  rw [← startOf_add_length_contentOf hn, slice_startOf_add hn (Nat.le_refl _), List.take_length]

/-- **A line and a column name a place** if the document has the line and the column is one of the
line, or the one behind it.  The offset is then the sum of the two, counted from the start of the
line. -/
theorem offsetAt_eq_ok_iff {line column : Int} {offset : Nat} :
    d.offsetAt line column = .ok offset ↔
      0 ≤ line ∧ line < d.lineCount ∧ 0 ≤ column ∧
        column ≤ (d.contentOf line.toNat).length ∧
        offset = d.startOf line.toNat + column.toNat := by
  rw [offsetAt]
  by_cases hline : line < 0 ∨ d.lineCount ≤ line
  · rw [if_pos hline]
    refine ⟨nofun, fun h => absurd hline ?_⟩
    omega
  have hn : line.toNat < d.lineCount := by omega
  have hlength : d.endOf line.toNat - d.startOf line.toNat = (d.contentOf line.toNat).length := by
    have := startOf_add_length_contentOf hn
    omega
  rw [if_neg hline]
  dsimp only
  rw [hlength]
  by_cases hcolumn : column < 0 ∨ (d.contentOf line.toNat).length < column
  · rw [if_pos hcolumn]
    refine ⟨nofun, fun h => absurd hcolumn ?_⟩
    omega
  · rw [if_neg hcolumn, Except.ok.injEq]
    omega

/-- A line and a column that name a place count the line from the start of the text and the column
from the start of the line, and neither is negative. -/
theorem exists_natCast_of_offsetAt {line column : Int} {offset : Nat}
    (h : d.offsetAt line column = .ok offset) :
    ∃ n k : Nat, line = n ∧ column = k ∧ n < d.lineCount ∧ k ≤ (d.contentOf n).length ∧
      offset = d.startOf n + k := by
  obtain ⟨hline, hlt, hcolumn, hle, rfl⟩ := offsetAt_eq_ok_iff.1 h
  exact ⟨line.toNat, column.toNat, by omega, by omega, by omega, by omega, rfl⟩

theorem le_of_offsetAt {line column : Int} {offset : Nat}
    (h : d.offsetAt line column = .ok offset) : offset ≤ d.text.length := by
  obtain ⟨hline, hlt, hcolumn, hle, rfl⟩ := offsetAt_eq_ok_iff.1 h
  have hn : line.toNat < d.lineCount := by omega
  rw [lineCount_eq_count] at hn
  obtain ⟨a, r, ht, ha, hcount⟩ := exists_startsLine (Nat.le_of_lt_succ hn)
  have hprefix := (Lexis.untilBreak_isPrefix r).length_le
  rw [← hcount] at hle ⊢
  rw [contentOf_eq ht ha] at hle
  rw [startOf_eq ht ha, ht, List.length_append]
  omega

/-- A place that is refused is the one that was asked for, whichever of its numbers is at fault. -/
theorem eq_of_offsetAt_error {line column : Int} {e : PositionError}
    (h : d.offsetAt line column = .error e) : e.line = line ∧ e.column = column := by
  rw [offsetAt] at h
  split at h
  · cases h
    exact ⟨rfl, rfl⟩
  · dsimp only at h
    split at h
    · cases h
      exact ⟨rfl, rfl⟩
    · cases h

/-- There is no line at or behind the number of lines. -/
theorem lineStart_eq_error (hn : d.lineCount ≤ n) : d.lineStart n = .error ⟨n⟩ := by
  have hnonneg : ¬(n : Int) < 0 := Int.not_lt.2 (Int.natCast_nonneg n)
  rw [lineStart, if_neg hnonneg, if_neg hnonneg, Int.toNat_natCast, List.getElem?_eq_none hn]

end Document

end SmartEnter
