/-
# A line that is broken in two

A line break is put into a text, with something behind it that is on one line.  Read as a list of
lines, the text changes at one place only: the line that is broken gives way to two lines, the first
one ended by the new break and the second one by the old break (`Text.exists_sourceLines_break`).

So the document that comes out has the old lines at the old numbers above the new break, and one
number further down below it (`breaksLine_insert`).

The list of lines carries the argument because everything that is asked of a line, its text and its
break, is an entry of it.  One equation between two lists replaces a calculation with offsets for
each line above and below, and the numbers of the lines are then those of the entries.

Two things have to be excluded, and both would join characters to one break that stand apart
otherwise.  The new line feed must not come to stand behind a carriage return, and what is put in
behind it must not end in one if a line feed follows (`Unbroken`).
-/
import SmartEnter.Proofs.Document.Partition

namespace SmartEnter

open Lexis (untilBreak)
open Text (Line sourceLines Unbroken)

/-! ## 1. The lines of a text

The induction is on the text before the place, line by line: as long as a break is to come, the
first lines of both lists are the same. -/

namespace Text

variable {a b q s : List Char}

/-- A text in front that is not broken goes into the first line.  All other lines stay as they
are. -/
theorem sourceLines_append_of_unbroken {l : Line} {ls : List Line} (h : Unbroken b q)
    (hq : sourceLines q = l :: ls) :
    sourceLines (b ++ q) = ⟨b ++ l.content, l.terminator⟩ :: ls := by
  induction b with
  | nil => exact hq
  | cons c b ih =>
    obtain ⟨hc, hb⟩ := unbroken_cons_iff.1 h
    rw [List.cons_append, sourceLines_cons_of_not_isBreak hc, ih hb]
    rfl

/-- **One line gives way to two** when a line break is put in, with a text `s` of one line behind
it.  The lines above and below are the same lists on both sides. -/
theorem exists_sourceLines_break (ha : StartsLine a) (hb : '\n' ∉ b)
    (hr : b.getLast? ≠ some '\r') (hs : Unbroken s q) :
    ∃ above below br, above.length = a.count '\n' ∧
      sourceLines (a ++ (b ++ q)) = above ++ ⟨b ++ untilBreak q, br⟩ :: below ∧
      sourceLines (a ++ (b ++ '\n' :: (s ++ q))) =
        above ++ ⟨b, ['\n']⟩ :: ⟨s ++ untilBreak q, br⟩ :: below := by
  have hb : ∀ y, Unbroken b y := fun y => ⟨hb, fun hlast => absurd hlast hr⟩
  obtain ⟨above, habove, hcount, -⟩ := exists_sourceLines_append ha
  obtain ⟨br, below, hq⟩ := exists_sourceLines_eq_cons q
  have hbreak : sourceLines ('\n' :: (s ++ q)) =
      ⟨[], ['\n']⟩ :: ⟨s ++ untilBreak q, br⟩ :: below := by
    rw [sourceLines, sourceLines_append_of_unbroken hs hq]
  refine ⟨above, below, br, hcount, ?_, ?_⟩
  · rw [habove, sourceLines_append_of_unbroken (hb q) hq]
  · rw [habove, sourceLines_append_of_unbroken (hb _) hbreak, List.append_nil]

end Text

/-! ## 2. A line break that is put in

From the lists of lines to the look-ups of the document: what is at a place of one list is at a
place of the other, and the place tells the number. -/

namespace Document

variable {d : Document}

/-- Line `n` of a document is broken in two at the offset `c`, with the text `s` in front of what is
cut off.  The other lines keep their texts and their breaks.  The lines are looked up by number, as
everybody does who works with the document. -/
structure BreaksLine (d d' : Document) (n c : Nat) (s : List Char) : Prop where
  lineCount : d'.lineCount = d.lineCount + 1
  writable : d'.writable = d.writable
  above : ∀ i < n, d'.lineText i = d.lineText i ∧ d'.breakOf i = d.breakOf i
  first : d'.lineText n = .ok (Text.slice d.text (d.startOf n) c) ∧ d'.breakOf n = ['\n']
  second : d'.lineText (n + 1 : Nat) = .ok (s ++ Text.slice d.text c (d.endOf n)) ∧
    d'.breakOf (n + 1) = d.breakOf n
  below : ∀ i, n < i → i < d.lineCount →
    d'.lineText (i + 1 : Nat) = d.lineText i ∧ d'.breakOf (i + 1) = d.breakOf i

/-- A line that gives way to two, in the lists of lines, is broken in two. -/
theorem breaksLine_of_lines {d' : Document} {above below : List Line} {b u s br : List Char}
    {c : Nat} (hold : sourceLines d.text = above ++ ⟨b ++ u, br⟩ :: below)
    (hnew : sourceLines d'.text = above ++ ⟨b, ['\n']⟩ :: ⟨s ++ u, br⟩ :: below)
    (hwritable : d'.writable = d.writable)
    (hbefore : Text.slice d.text (d.startOf above.length) c = b)
    (hbehind : Text.slice d.text c (d.endOf above.length) = u) :
    d.BreaksLine d' above.length c s := by
  have hbroken : d.breakOf above.length = br := by
    have hline : (sourceLines d.text)[above.length]? = some ⟨b ++ u, br⟩ := by
      rw [hold]
      simp
    exact (line_of_getElem? hline).2
  refine ⟨?_, hwritable, fun i hi => line_congr ?_ ?_, ?_, ?_, fun i hi hlt => line_congr hlt ?_⟩
  · rw [← length_sourceLines, ← length_sourceLines, hold, hnew, List.length_append,
      List.length_append]
    rfl
  · rw [← length_sourceLines, hold, List.length_append]
    omega
  · rw [hold, hnew, List.getElem?_append_left hi, List.getElem?_append_left hi]
  · rw [hbefore]
    refine line_of_getElem? (l := ⟨b, ['\n']⟩) ?_
    rw [hnew]
    simp
  · rw [hbehind, hbroken]
    refine line_of_getElem? (l := ⟨s ++ u, br⟩) ?_
    rw [hnew]
    simp
  · obtain ⟨k, rfl⟩ := Nat.exists_eq_add_of_lt hi
    rw [hold, hnew, List.getElem?_append_right (by omega), List.getElem?_append_right (by omega),
      show above.length + k + 1 + 1 - above.length = k + 2 by omega,
      show above.length + k + 1 - above.length = k + 1 by omega]
    rfl

/-- **A line break breaks one line**, unless it joins a carriage return before it, or a line feed
joins one that is put in behind it. -/
theorem breaksLine_insert {c : Nat} {s : List Char} (hc : c ≤ d.text.length)
    (hr : (d.text.take c).getLast? ≠ some '\r') (hs : Unbroken s (d.text.drop c)) :
    d.BreaksLine (d.insert c ('\n' :: s)) (d.lineNumber c) c s := by
  obtain ⟨a, b, q, ht, rfl, ha, hb⟩ := exists_line hc
  rw [ht, List.take_left, List.getLast?_append] at hr
  rw [ht, List.drop_left] at hs
  have hlast : b.getLast? ≠ some '\r' := fun hlast => hr (by rw [hlast]; rfl)
  have htext : (d.insert (a ++ b).length ('\n' :: s)).text = a ++ (b ++ '\n' :: (s ++ q)) := by
    rw [insert, Text.insertAt_natCast hc, ht, List.take_left, List.drop_left]
    simp
  obtain ⟨above, below, br, hlength, hold, hnew⟩ := Text.exists_sourceLines_break ha hb hlast hs
  have hline : d.lineNumber (a ++ b).length = above.length := by rw [lineNumber_eq ht hb, hlength]
  rw [hline]
  refine breaksLine_of_lines (u := untilBreak q) ?_ (htext ▸ hnew) rfl ?_ ?_
  · rwa [ht, List.append_assoc]
  · rw [← hline, slice_startOf ht ha hb]
  · rw [← hline, slice_endOf hc, ht, List.drop_left]

end Document

end SmartEnter
