/-
# Lines make up the text, and their places are found again

A document is cut into lines by an index of offsets.  Read off the text, the cut is this: line `n`
stops at a break that has `n` line feeds in front, and the next line starts behind the break
(`hasBreak_iff_text`).  A break is a line feed, and the carriage return right before it if there is
one (`Text.IsBreakBehind`).

* The lines and their breaks, one after the other, are the text (`Partitioned`), and they are the
  lines that the text is read as (`getElem?_sourceLines`).
* The line of an offset, and its distance from the start of that line, lead back to the offset.
  Only inside a break there is no column that could (`RoundTrips`).
* A line and a column lead to the offset that lies there, or are refused because there is no such
  place (`Finds`).  The error names both, and can be shown unless one has too many digits
  (`not_isWritable_of_far_line`).

The index and the text are compared at one point, the break behind a line.  From `hasBreak_iff_text`
on, everything is a splitting of the text in three: what stands before a break, the break, and what
stands behind it.  That all lines with their breaks are the text is then an induction on the number
of lines, in which each line adds what stands between its start and the next one.

A carriage return belongs to the break if it stands right before the line feed, even if it is all
that the line has.  What is on the line and what is in the break are told apart by the text alone;
whether the line starts at the carriage return or before it makes no difference.

Main statement: `partitioned_and_found`.
-/
import SmartEnter.Proofs.Document.Lookup
import SmartEnter.Proofs.Document.SourceLines

namespace SmartEnter

open Lexis (untilBreak untilBreak_append untilBreak_eq_nil_iff exists_eq_untilBreak_append)
open Text (Line sourceLines Unbroken)

/-! ## 1. Breaks in a text

The break of a text is looked at from behind: the text before it decides whether a line feed is a
whole break, since a carriage return at its end would belong to the break. -/

namespace Text

/-- A line break behind the text `p`: a line feed that no carriage return precedes, or one with its
carriage return. -/
def IsBreakBehind (p br : List Char) : Prop :=
  br = ['\r', '\n'] ∨ br = ['\n'] ∧ p.getLast? ≠ some '\r'

variable {p br b r s : List Char}

theorem IsBreakBehind.eq_or (h : IsBreakBehind p br) : br = ['\n'] ∨ br = ['\r', '\n'] := by
  rcases h with h | ⟨h, -⟩
  · exact .inr h
  · exact .inl h

theorem IsBreakBehind.exists_newline (h : IsBreakBehind p br) :
    ∃ w, p ++ br = w ++ ['\n'] ∧
      (br = ['\n'] ∧ w = p ∨ br = ['\r', '\n'] ∧ w = p ++ ['\r']) := by
  rcases h.eq_or with rfl | rfl
  · exact ⟨p, rfl, .inl ⟨rfl, rfl⟩⟩
  · exact ⟨p ++ ['\r'], by simp, .inr ⟨rfl, rfl⟩⟩

theorem IsBreakBehind.isBreak (h : IsBreakBehind p br) (r : List Char) :
    isBreak (br ++ r) = true := by
  rcases h.eq_or with rfl | rfl <;> rfl

/-- No break starts in the part of the line that stands before the break. -/
theorem IsBreakBehind.unbroken (h : IsBreakBehind (p ++ b) br) (hb : '\n' ∉ b) :
    Unbroken b (br ++ r) := by
  refine ⟨hb, fun hlast => ?_⟩
  rcases h with rfl | ⟨-, hne⟩
  · simp
  · refine absurd ?_ hne
    rw [List.getLast?_append, hlast]
    rfl

/-- A break is seen from the start of its line as from the start of the text. -/
theorem IsBreakBehind.append {a : List Char} (h : IsBreakBehind b br) (ha : StartsLine a) :
    IsBreakBehind (a ++ b) br := by
  rcases h with h | ⟨h, hne⟩
  · exact .inl h
  · refine .inr ⟨h, ?_⟩
    rcases List.eq_nil_or_concat b with rfl | ⟨b, c, rfl⟩
    · rw [List.append_nil]
      rcases ha with rfl | ha
      · exact nofun
      · rw [ha]
        decide
    · rw [List.concat_eq_append] at hne ⊢
      rw [← List.append_assoc, List.getLast?_concat]
      rwa [List.getLast?_concat] at hne

/-- Up to its first line feed, a text is unbroken, and then there is a break. -/
theorem exists_break (h : '\n' ∈ s) :
    ∃ u br r, s = u ++ br ++ r ∧ '\n' ∉ u ∧ IsBreakBehind u br := by
  obtain ⟨z, hs, hu, hz⟩ := exists_eq_untilBreak_append s
  rcases untilBreak_eq_nil_iff.1 hz with rfl | hz
  · rw [List.append_nil] at hs
    rw [hs] at h
    exact absurd h hu.1
  · cases z with
    | nil => cases hz
    | cons c z =>
      rcases isBreak_cons_iff.1 hz with rfl | ⟨rfl, hn⟩
      · exact ⟨untilBreak s, ['\n'], z, by simpa using hs, hu.1, .inr ⟨rfl, fun hl => hu.2 hl rfl⟩⟩
      · obtain ⟨r, rfl⟩ := List.head?_eq_some_iff.1 hn
        exact ⟨untilBreak s, ['\r', '\n'], r, by simpa using hs, hu.1, .inl rfl⟩

end Text

/-! ## 2. The breaks of a document

The look-ups of the document around a break, and the same break in the text. -/

namespace Document

/-- Line `n` ends at `stop`, and the next line starts at `next`.  Both are what the look-ups of the
document answer, so the structure says nothing that could not be asked of it. -/
structure HasBreak (d : Document) (n stop next : Nat) : Prop where
  ends : d.lineEnd n = .ok stop
  starts : d.lineStart (n + 1) = .ok next

variable {d : Document} {n stop next : Nat} {p br r : List Char}

/-- Every line but the last one has a break, and the last one has none, also where it is empty. -/
theorem hasBreak_iff :
    d.HasBreak n stop next ↔
      n + 1 < d.lineCount ∧ stop = d.endOf n ∧ next = d.startOf (n + 1) := by
  constructor
  · rintro ⟨hend, hstart⟩
    have hn : n + 1 < d.lineCount := by
      by_contra hge
      have hnone := lineStart_eq_error (Nat.not_lt.1 hge)
      rw [Int.natCast_add, Int.natCast_one, hstart] at hnone
      cases hnone
    rw [lineEnd_natCast (by omega)] at hend
    have hstart' := lineStart_natCast hn
    rw [Int.natCast_add, Int.natCast_one, hstart] at hstart'
    cases hstart'
    exact ⟨hn, (Int.natCast_inj.1 (Except.ok.inj hend)).symm, rfl⟩
  · rintro ⟨hn, rfl, rfl⟩
    exact ⟨lineEnd_natCast (by omega), lineStart_natCast hn⟩

theorem hasBreak_of_text (h : d.text = p ++ br ++ r) (hbr : Text.IsBreakBehind p br) :
    d.HasBreak (p.count '\n') p.length (p ++ br).length := by
  obtain ⟨a, b, rfl, ha, hb⟩ := exists_startsLine_append p
  have hcount : (a ++ b).count '\n' = a.count '\n' := by
    rw [List.count_append, List.count_eq_zero.2 hb, Nat.add_zero]
  have hnext : (a ++ b ++ br).count '\n' = a.count '\n' + 1 := by
    rw [List.count_append, hcount, Text.count_break hbr.eq_or]
  have hstarts : StartsLine (a ++ b ++ br) := by
    rcases hbr.eq_or with rfl | rfl
    · exact startsLine_append_newline _
    · exact .inr (by simp)
  have hend := endOf_eq (d := d) (r := b ++ br ++ r) (by rw [h]; simp) ha
  rw [List.append_assoc, untilBreak_append (hbr.unbroken hb),
    untilBreak_eq_nil_iff.2 (.inr (hbr.isBreak r)), List.append_nil, ← List.length_append] at hend
  rw [hcount, hasBreak_iff]
  refine ⟨?_, hend.symm, ?_⟩
  · rw [lineCount_eq_count, h, List.count_append, hnext]
    omega
  · rw [← hnext, startOf_eq h hstarts]

theorem HasBreak.stop_unique {m k : Nat} (h : d.HasBreak n stop next) (h' : d.HasBreak m k next) :
    stop = k := by
  obtain ⟨hn, rfl, hnext⟩ := hasBreak_iff.1 h
  obtain ⟨hm, rfl, hnext'⟩ := hasBreak_iff.1 h'
  have hline := lineNumber_startOf_add hn (Nat.zero_le _)
  have hline' := lineNumber_startOf_add hm (Nat.zero_le _)
  rw [Nat.add_zero, ← hnext, hnext', ← Nat.add_zero (d.startOf _), hline'] at hline
  rw [Nat.succ.inj hline]

/-- **Where a line breaks**, read off the text.  This is the one statement that connects the index
with the text; all others about breaks are drawn from it. -/
theorem hasBreak_iff_text :
    d.HasBreak n stop next ↔
      ∃ p br r, d.text = p ++ br ++ r ∧ Text.IsBreakBehind p br ∧ p.count '\n' = n ∧
        stop = p.length ∧ next = (p ++ br).length := by
  constructor
  · intro h
    obtain ⟨hn, hstop, hnext⟩ := hasBreak_iff.1 h
    rw [lineCount_eq_count] at hn
    obtain ⟨a, s, ht, ha, hcount⟩ := exists_startsLine (s := d.text) (n := n) (by omega)
    have hs : '\n' ∈ s := by
      rw [← List.count_pos_iff]
      rw [ht, List.count_append] at hn
      omega
    obtain ⟨u, br, r, rfl, hu, hbr⟩ := Text.exists_break hs
    have ht' : d.text = a ++ u ++ br ++ r := by rw [ht]; simp
    have hfound := hasBreak_of_text ht' (hbr.append ha)
    have hcount' : (a ++ u).count '\n' = n := by
      rw [List.count_append, hcount, List.count_eq_zero.2 hu, Nat.add_zero]
    rw [hcount'] at hfound
    obtain ⟨-, hstop', hnext'⟩ := hasBreak_iff.1 hfound
    exact ⟨a ++ u, br, r, ht', hbr.append ha, hcount', hstop.trans hstop'.symm,
      hnext.trans hnext'.symm⟩
  · rintro ⟨p, br, r, ht, hbr, rfl, rfl, rfl⟩
    exact hasBreak_of_text ht hbr

/-- What stands between a line and the next one; nothing behind the last line. -/
def breakOf (d : Document) (n : Nat) : List Char :=
  Text.slice d.text (d.endOf n) (d.startOf (n + 1))

theorem HasBreak.slice_eq (h : d.HasBreak n stop next) :
    Text.slice d.text stop next = d.breakOf n := by
  obtain ⟨-, rfl, rfl⟩ := hasBreak_iff.1 h
  rfl

theorem HasBreak.exists_cut (h : d.HasBreak n stop next) :
    ∃ p br r, d.text = p ++ br ++ r ∧ Text.IsBreakBehind p br ∧ stop = p.length ∧
      next = (p ++ br).length ∧ Text.slice d.text stop next = br := by
  obtain ⟨p, br, r, ht, hbr, -, rfl, rfl⟩ := hasBreak_iff_text.1 h
  refine ⟨p, br, r, ht, hbr, rfl, rfl, ?_⟩
  rw [Text.slice, Text.bound_natCast (length_le (by rw [ht, List.append_assoc])),
    Text.bound_natCast (length_le ht), ht, List.take_left, List.drop_left]

theorem startOf_of_lineCount_le (h : d.lineCount ≤ n) : d.startOf n = d.text.length := by
  rw [startOf, List.getD_eq_getElem?_getD, List.getElem?_eq_none h, Option.getD_none]

theorem endOf_of_lineCount_le (h : d.lineCount ≤ n + 1) : d.endOf n = d.text.length := by
  rw [endOf, List.getElem?_eq_none h]

theorem endOf_le_startOf_succ (d : Document) (n : Nat) : d.endOf n ≤ d.startOf (n + 1) := by
  by_cases hn : n + 1 < d.lineCount
  · have h := hasBreak_iff.2 ⟨hn, rfl, rfl⟩
    obtain ⟨p, br, r, -, -, hstop, hstart, -⟩ := h.exists_cut
    rw [hstop, hstart, List.length_append]
    exact Nat.le_add_right _ _
  · have hge : d.lineCount ≤ n + 1 := Nat.not_lt.1 hn
    exact Nat.le_of_eq ((endOf_of_lineCount_le hge).trans (startOf_of_lineCount_le hge).symm)

/-- A line with its break is what stands between its start and that of the next line. -/
theorem contentOf_append_breakOf (hn : n < d.lineCount) :
    d.text.take (d.startOf n) ++ (d.contentOf n ++ d.breakOf n) =
      d.text.take (d.startOf (n + 1)) := by
  have hcut : ∀ {i j : Nat}, i ≤ j →
      d.text.take i ++ (d.text.take j).drop i = d.text.take j := by
    intro i j hij
    conv_rhs => rw [← List.take_append_drop i (d.text.take j), List.take_take, Nat.min_eq_left hij]
  have hline : d.startOf n ≤ d.endOf n := by
    rw [← startOf_add_length_contentOf hn]
    exact Nat.le_add_right _ _
  have hnext := d.startOf_le (n + 1)
  have hend := d.endOf_le_startOf_succ n
  rw [contentOf, ← List.append_assoc, hcut hline, breakOf, Text.slice, Text.bound_natCast hnext,
    Text.bound_natCast (Nat.le_trans hend hnext), hcut hend]

/-- The lines up to a number, with their breaks, are the text before the next line.  The induction
is on the number of lines. -/
theorem flatMap_lines {k : Nat} (hk : k ≤ d.lineCount) :
    (List.range k).flatMap (fun n => d.contentOf n ++ d.breakOf n) = d.text.take (d.startOf k) := by
  induction k with
  | zero => rfl
  | succ k ih =>
    rw [List.range_succ, List.flatMap_append, ih (by omega), List.flatMap_singleton,
      contentOf_append_breakOf hk]

/-- The lines of a document and their breaks make up its text.  The fields say what a break is, when
it has a carriage return, what a line holds, and that nothing else is in the text. -/
structure Partitioned (d : Document) : Prop where
  hasBreak : ∀ n, n + 1 < d.lineCount → ∃ stop next, d.HasBreak n stop next
  isBreak : ∀ n stop next, d.HasBreak n stop next →
    Text.slice d.text stop next = ['\n'] ∨ Text.slice d.text stop next = ['\r', '\n']
  ofReturn : ∀ n start stop next, d.HasBreak n stop next → d.lineStart n = .ok start →
    start + 2 ≤ next → d.text[next - 2]? = some '\r' → Text.slice d.text stop next = ['\r', '\n']
  lineText : ∀ n, n < d.lineCount → d.lineText n = .ok (d.contentOf n) ∧ '\n' ∉ d.contentOf n
  breakOf : ∀ n stop next, d.HasBreak n stop next → d.breakOf n = Text.slice d.text stop next
  last : d.breakOf (d.lineCount - 1) = []
  whole : (List.range d.lineCount).flatMap (fun n => d.contentOf n ++ d.breakOf n) = d.text

theorem partitioned (d : Document) : d.Partitioned where
  hasBreak n hn := ⟨_, _, hasBreak_iff.2 ⟨hn, rfl, rfl⟩⟩
  isBreak n stop next h := by
    obtain ⟨p, br, r, -, hbr, -, -, hslice⟩ := h.exists_cut
    rw [hslice]
    exact hbr.eq_or
  ofReturn n start stop next h _ _ hreturn := by
    obtain ⟨p, br, r, ht, hbr, -, rfl, hslice⟩ := h.exists_cut
    rw [hslice]
    rcases hbr with hbr | ⟨rfl, hne⟩
    · exact hbr
    · -- the character before the line feed is the last one of `p`
      refine absurd ?_ hne
      rcases List.eq_nil_or_concat p with rfl | ⟨p, c, rfl⟩
      · rw [ht] at hreturn
        cases hreturn
      · rw [List.concat_eq_append] at ht hreturn ⊢
        rw [ht] at hreturn
        simpa using hreturn
  lineText n hn := by
    refine ⟨lineText_natCast hn, ?_⟩
    rw [lineCount_eq_count] at hn
    obtain ⟨a, r, ht, ha, rfl⟩ := exists_startsLine (Nat.le_of_lt_succ hn)
    rw [contentOf_eq ht ha]
    exact Lexis.not_mem_untilBreak r
  breakOf n stop next h := h.slice_eq.symm
  last := by
    have hlast : d.lineCount ≤ d.lineCount - 1 + 1 := by omega
    have hcut := Text.bound_natCast (Nat.le_refl d.text.length)
    rw [Document.breakOf, endOf_of_lineCount_le hlast, startOf_of_lineCount_le hlast, Text.slice,
      hcut, List.take_length, List.drop_length]
  whole := by
    rw [flatMap_lines (Nat.le_refl _), startOf_of_lineCount_le (Nat.le_refl _), List.take_length]

/-! ## 3. The list of lines

The lines of the document are those that the text is read as, one by one.  So two documents can be
compared by their lists of lines, which is easier than by their offsets. -/

theorem length_sourceLines (d : Document) : (sourceLines d.text).length = d.lineCount := by
  rw [Text.length_sourceLines, lineCount_eq_count]

/-- Before a line stand the lines above it, with their breaks. -/
theorem take_startOf (hn : n ≤ d.lineCount) :
    d.text.take (d.startOf n) = ((sourceLines d.text).take n).flatMap Line.full := by
  rcases Nat.lt_or_eq_of_le hn with hlt | rfl
  · have hprefix : ((sourceLines d.text).take n).flatMap Line.full <+: d.text := by
      refine ⟨((sourceLines d.text).drop n).flatMap Line.full, ?_⟩
      rw [← List.flatMap_append, List.take_append_drop, Text.flatMap_full_sourceLines]
    rw [startOf_eq_lineOffset hlt, Text.lineOffset]
    exact (List.prefix_iff_eq_take.1 hprefix).symm
  · rw [startOf_of_lineCount_le (Nat.le_refl _), List.take_length, ← length_sourceLines,
      List.take_length,
      Text.flatMap_full_sourceLines]

/-- **The lines of a document are those of its text**, and so are their breaks. -/
theorem getElem?_sourceLines (hn : n < d.lineCount) :
    (sourceLines d.text)[n]? = some ⟨d.contentOf n, d.breakOf n⟩ := by
  have hlt : n < (sourceLines d.text).length := by rwa [length_sourceLines]
  have hget := List.getElem?_eq_getElem hlt
  have hcontent : d.contentOf n = (sourceLines d.text)[n].content := by
    rw [contentOf_eq_lineContent hn, Text.lineContent, hget]
    rfl
  have hfull : d.contentOf n ++ d.breakOf n = (sourceLines d.text)[n].full := by
    have hcut := contentOf_append_breakOf hn
    rw [take_startOf (Nat.le_of_lt hn), take_startOf hn, List.take_succ_eq_append_getElem hlt,
      List.flatMap_append, List.flatMap_singleton] at hcut
    exact List.append_cancel_left hcut
  rw [Line.full, ← hcontent] at hfull
  rw [hget, hcontent, List.append_cancel_left hfull]

/-- A line of the text is one of the document, with its content and its break. -/
theorem line_of_getElem? {l : Line} (h : (sourceLines d.text)[n]? = some l) :
    d.lineText n = .ok l.content ∧ d.breakOf n = l.terminator := by
  obtain ⟨hlt, -⟩ := List.getElem?_eq_some_iff.1 h
  rw [length_sourceLines] at hlt
  rw [getElem?_sourceLines hlt] at h
  cases h
  exact ⟨lineText_natCast hlt, rfl⟩

theorem line_congr {d' : Document} {m : Nat} (hn : n < d.lineCount)
    (h : (sourceLines d'.text)[m]? = (sourceLines d.text)[n]?) :
    d'.lineText m = d.lineText n ∧ d'.breakOf m = d.breakOf n := by
  have hline := getElem?_sourceLines hn
  obtain ⟨htext, hbreak⟩ := line_of_getElem? (h.trans hline)
  exact ⟨htext.trans (lineText_natCast hn).symm, hbreak⟩

/-! ## 4. From an offset to its place and back

An offset is on a line, and its column is its distance from the start of the line.  The one offset
whose column does not lead back is that between the two characters of a break: the line has ended by
then, and the break is not part of it. -/

/-- The offset lies between a carriage return and its line feed.  It is the one kind of offset that
is on no column of a line. -/
def InsideBreak (d : Document) (o : Nat) : Prop :=
  ∃ p r, d.text = p ++ '\r' :: '\n' :: r ∧ o = p.length + 1

/-- An offset has a line, and it is found again by the line and its distance from the start of that
line, but for one inside a break. -/
structure RoundTrips (d : Document) (o : Nat) : Prop where
  lineNumber : d.lineNumber o = (d.text.take o).count '\n'
  found : ∃ start, d.lineStart (d.lineNumber o) = .ok start ∧ start ≤ o ∧
    (d.offsetAt (d.lineNumber o) (o - start) = .ok o ↔ ¬d.InsideBreak o)

theorem insideBreak_iff {b : List Char} (h : d.text = p ++ b ++ r) (hp : StartsLine p)
    (hb : '\n' ∉ b) : d.InsideBreak (p ++ b).length ↔ ¬Unbroken b r := by
  have hiff : ¬Unbroken b r ↔ b.getLast? = some '\r' ∧ r.head? = some '\n' := by
    rw [Unbroken]
    simp [hb]
  rw [hiff]
  constructor
  · rintro ⟨q, z, hq, hlen⟩
    have hcut : (p ++ b) ++ r = (q ++ ['\r']) ++ '\n' :: z := by
      rw [← h, hq]
      simp
    obtain ⟨hpb, hr⟩ := List.append_inj hcut (by simpa using hlen)
    refine ⟨?_, by rw [hr]; rfl⟩
    rcases List.eq_nil_or_concat b with rfl | ⟨b, c, rfl⟩
    · rw [List.append_nil] at hpb
      rcases hp with rfl | hp
      · simp at hpb
      · rw [hpb, List.getLast?_concat] at hp
        cases hp
    · rw [List.concat_eq_append, ← List.append_assoc] at hpb
      rw [List.concat_eq_append, List.getLast?_concat]
      exact congrArg some (List.singleton_injective (List.append_inj' hpb rfl).2)
  · rintro ⟨hlast, hhead⟩
    obtain ⟨b, rfl⟩ := List.getLast?_eq_some_iff.1 hlast
    obtain ⟨z, rfl⟩ := List.head?_eq_some_iff.1 hhead
    exact ⟨p ++ b, z, by rw [h]; simp, by simp; omega⟩

theorem roundTrips {o : Nat} (ho : o ≤ d.text.length) : d.RoundTrips o := by
  refine ⟨lineNumber_eq_count ho, ?_⟩
  obtain ⟨a, b, r, ht, rfl, ha, hb⟩ := exists_line ho
  have hline := lineNumber_eq ht hb
  have hlt := lineNumber_lt_lineCount ho
  have ht' : d.text = a ++ (b ++ r) := by rw [ht, List.append_assoc]
  rw [hline] at hlt ⊢
  have hstart := startOf_eq ht' ha
  refine ⟨_, lineStart_natCast hlt, ?_, ?_⟩
  · rw [hstart, List.length_append]
    exact Nat.le_add_right _ _
  · have hcolumn : ((a ++ b).length : Int) - d.startOf (a.count '\n') = b.length := by
      rw [hstart, List.length_append]
      omega
    rw [hcolumn, insideBreak_iff ht ha hb, not_not, ← Lexis.length_le_untilBreak_iff,
      offsetAt_eq_ok_iff, Int.toNat_natCast, Int.toNat_natCast, contentOf_eq ht' ha, hstart,
      List.length_append]
    omega

/-! ## 5. From a line and a column to their offset

All integers may be asked for, and those that name no place are refused under their own numbers,
which count from one there. -/

/-- A line and a column lead to the offset that lies there, or they are refused by name.  The last
field says exactly when they are refused. -/
structure Finds (d : Document) (line column : Int) : Prop where
  found : ∀ o, d.offsetAt line column = .ok o →
    o ≤ d.text.length ∧ d.lineNumber o = line ∧
      ∃ start, d.lineStart line = .ok start ∧ (o : Int) - start = column
  refused : ∀ e, d.offsetAt line column = .error e →
    (e.diagnostic d.text).line = line + 1 ∧ (e.diagnostic d.text).column = column + 1 ∧
      ((e.diagnostic d.text).IsWritable ↔
        Decimal.IsWritable (line + 1) ∧ Decimal.IsWritable (column + 1))
  refused_iff : (∃ e, d.offsetAt line column = .error e) ↔
    line < 0 ∨ d.lineCount ≤ line ∨ column < 0 ∨
      ∃ text, d.lineText line = .ok text ∧ text.length < column

theorem finds (d : Document) (line column : Int) : d.Finds line column where
  found o h := by
    have hle := le_of_offsetAt h
    obtain ⟨n, k, rfl, rfl, hn, hk, rfl⟩ := exists_natCast_of_offsetAt h
    refine ⟨hle, ?_, d.startOf n, lineStart_natCast hn, ?_⟩
    · rw [lineNumber_startOf_add hn hk]
    · omega
  refused e h := by
    obtain ⟨hline, hcolumn⟩ := eq_of_offsetAt_error h
    have hl : (e.diagnostic d.text).line = line + 1 := congrArg (· + 1) hline
    have hc : (e.diagnostic d.text).column = column + 1 := congrArg (· + 1) hcolumn
    exact ⟨hl, hc, by rw [Diagnostic.IsWritable, hl, hc]⟩
  refused_iff := by
    have hok : (∃ e, d.offsetAt line column = .error e) ↔
        ¬∃ o, d.offsetAt line column = .ok o := by
      cases d.offsetAt line column <;> simp
    rw [hok]
    simp only [offsetAt_eq_ok_iff]
    by_cases hline : 0 ≤ line ∧ line < d.lineCount
    · have hnat : line = (line.toNat : Int) := by omega
      have htext : d.lineText line = .ok (d.contentOf line.toNat) := by
        rw [hnat]
        exact lineText_natCast (by omega)
      simp only [htext, Except.ok.injEq, exists_eq_left']
      constructor
      · intro h
        by_contra hin
        exact h ⟨_, by omega, by omega, by omega, by omega, rfl⟩
      · rintro h ⟨o, ho⟩
        omega
    · refine ⟨fun _ => by omega, ?_⟩
      rintro - ⟨o, ho⟩
      exact hline ⟨ho.1, ho.2.1⟩

/-- Before a place that is found, its line has as many characters as the column says. -/
theorem exists_text_before {line column : Int} {o : Nat} (h : d.offsetAt line column = .ok o) :
    ∃ text, d.lineText line = .ok text ∧
      Text.slice d.text (d.startOf (d.lineNumber o)) o = text.take column.toNat := by
  obtain ⟨n, k, rfl, rfl, hn, hk, rfl⟩ := exists_natCast_of_offsetAt h
  refine ⟨d.contentOf n, lineText_natCast hn, ?_⟩
  rw [lineNumber_startOf_add hn hk, slice_startOf_add hn hk, Int.toNat_natCast]

/-- **Lines and breaks make up the text, and places are found again**: every offset by its line and
its column, unless it lies inside a break, and every line and column by the offset there, unless
there is none. -/
theorem partitioned_and_found (d : Document) :
    d.Partitioned ∧ (∀ o ≤ d.text.length, d.RoundTrips o) ∧
      ∀ line column : Int, d.Finds line column :=
  ⟨d.partitioned, fun _ ho => roundTrips ho, d.finds⟩

/-- Two returns before a line feed: the break takes the second one only, and the offset between the
two characters of the break has no column. -/
theorem partitioned_and_found_at_returns :
    let d : Document := { text := ['a', '\r', '\r', '\n'] }
    3 ≤ d.text.length ∧ d.InsideBreak 3 ∧ d.breakOf 0 = ['\r', '\n'] ∧ d.Partitioned ∧
      d.RoundTrips 3 ∧ d.offsetAt 0 2 = .ok 2 ∧ d.Finds 0 2 := by
  intro d
  have hlength : 3 ≤ d.text.length := by decide
  obtain ⟨hlines, hoffsets, hplaces⟩ := d.partitioned_and_found
  exact ⟨hlength, ⟨['a', '\r'], [], rfl, rfl⟩, by decide, hlines, hoffsets 3 hlength, by decide,
    hplaces 0 2⟩

/-- A line below the text is refused, but the error cannot be shown if its number has too many
digits. -/
theorem refused_of_unwritable {line column : Int} (hline : d.lineCount ≤ line)
    (hw : ¬Decimal.IsWritable (line + 1)) :
    (∃ e, d.offsetAt line column = .error e) ∧
      ∀ e, d.offsetAt line column = .error e → ¬(e.diagnostic d.text).IsWritable := by
  refine ⟨(d.finds line column).refused_iff.2 (.inr (.inl hline)), fun e he hshown => hw ?_⟩
  exact (((d.finds line column).refused e he).2.2.1 hshown).1

/-- The empty text has no line at the greatest number that can be written, but the error cannot be
shown: it names the number from one on. -/
theorem not_isWritable_of_far_line :
    let d : Document := { text := [] }
    let line : Int := (Nat.pow 10 Decimal.digitLimit : Nat) - 1
    (∃ e, d.offsetAt line 0 = .error e) ∧
      ∀ e, d.offsetAt line 0 = .error e → ¬(e.diagnostic d.text).IsWritable := by
  have hfar : ∀ k : Nat, 1 < k → ({ text := [] } : Document).lineCount ≤ (k : Int) - 1 := by
    intro k hk
    have hcount : ({ text := [] } : Document).lineCount = 1 := rfl
    omega
  have hdigits : ¬Decimal.IsWritable ((Nat.pow 10 Decimal.digitLimit : Nat) - 1 + 1) := by
    rw [Int.sub_add_cancel]
    exact Decimal.not_isWritable_of_le (Nat.le_refl _)
  exact refused_of_unwritable (hfar _ (Decimal.one_lt_pow_ten (by decide))) hdigits

end Document

end SmartEnter
