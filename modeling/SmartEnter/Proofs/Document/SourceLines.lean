/-
# The lines of a document and the lines of its text

A document finds its lines in a table of offsets.  The lines of a source text are another reading of
the same text, made without offsets (`Text.sourceLines`).  Both count the same lines and put them at
the same places (`Document.startOf_eq_lineOffset`, `Document.contentOf_eq_lineContent`).

The reading without offsets is the plainer one of the two.  It is a function on the text by
recursion on its characters, and what a line holds can be said without a word about places.
Statements that a reader should be able to check are made with it, and this module is what lets them
be proved of the document.

The two are compared at the start of a line.  The text before it is made up of whole lines
(`StartsLine`), which are lines of both readings, whatever follows; so the line in question is the
first one of the rest, and there is nothing to be counted.
-/
import SmartEnter.Proofs.Document.Lines
import SmartEnter.Text.Lines

namespace SmartEnter

open Lexis (untilBreak)

namespace Text

/-- The text of a line, its break excluded; empty if there is no such line.  It is read off the
lines of the text. -/
def lineContent (s : List Char) (n : Nat) : List Char :=
  ((sourceLines s)[n]?.map Line.content).getD []

/-- Where a line starts: behind the lines before it, whose lengths are added up, breaks included. -/
def lineOffset (s : List Char) (n : Nat) : Nat :=
  (((sourceLines s).take n).flatMap Line.full).length

/-- The text before a caret ends with the character before the caret. -/
theorem getLast?_take_of_le {s : List Char} {c : Nat} (hpos : 1 ≤ c) (hle : c ≤ s.length) :
    (s.take c).getLast? = s[c - 1]? := by
  rw [List.getLast?_eq_getElem?, List.length_take, Nat.min_eq_left hle,
    List.getElem?_take_of_lt (by omega)]

/-! ## 1. Whole lines in front

Whole lines in front of a text stay lines of their own: the last of them has ended, so no break can
lie across the place where the rest begins. -/

theorem sourceLines_cons_of_not_isBreak {c : Char} {s : List Char}
    (h : isBreak (c :: s) = false) : sourceLines (c :: s) = consLine c (sourceLines s) := by
  rw [sourceLines.eq_4]
  · rintro rfl
    cases h
  · rintro r rfl rfl
    cases h

/-- A character that is no line feed, nor a carriage return before one, does not break a line. -/
theorem isBreak_eq_false {c : Char} {s : List Char} (hc : c ≠ '\n')
    (hcr : ∀ r, c = '\r' → s = '\n' :: r → False) : isBreak (c :: s) = false := by
  rw [← Bool.not_eq_true, isBreak_cons_iff]
  rintro (rfl | ⟨rfl, hn⟩)
  · exact hc rfl
  · cases s with
    | nil => cases hn
    | cons d s =>
      obtain rfl := Option.some.inj hn
      exact hcr s rfl rfl

theorem length_consLine (c : Char) {lines : List Line} (h : lines ≠ []) :
    (consLine c lines).length = lines.length := by
  cases lines with
  | nil => exact absurd rfl h
  | cons l lines => rfl

theorem consLine_append (c : Char) {lines : List Line} (h : lines ≠ []) (more : List Line) :
    consLine c (lines ++ more) = consLine c lines ++ more := by
  cases lines with
  | nil => exact absurd rfl h
  | cons l lines => rfl

/-- No break of two characters lies across the end of whole lines. -/
theorem head?_append_ne {c : Char} {rest : List Char} (ha : StartsLine (c :: rest))
    (hpair : ∀ tail, c = '\r' → rest = '\n' :: tail → False) (x : List Char) :
    c = '\r' → (rest ++ x).head? ≠ some '\n' := by
  rintro rfl hn
  cases rest with
  | nil => cases ha.resolve_left (List.cons_ne_nil '\r' [])
  | cons d rest => exact hpair rest rfl (by rw [Option.some.inj hn])

/-- **Whole lines in front of a text are lines of their own**, whatever the text.  The induction is
on the whole lines, character by character. -/
theorem exists_sourceLines_append {a : List Char} (ha : StartsLine a) :
    ∃ ls, (∀ r, sourceLines (a ++ r) = ls ++ sourceLines r) ∧ ls.length = a.count '\n' ∧
      ls.flatMap Line.full = a := by
  fun_induction sourceLines a with
  | case1 => exact ⟨[], fun _ => rfl, rfl, rfl⟩
  | case2 a ih =>
    obtain ⟨ls, hls, hlen, hfull⟩ := ih ha.tail
    refine ⟨⟨[], ['\n']⟩ :: ls, fun r => ?_, ?_, ?_⟩
    · rw [List.cons_append, sourceLines, hls, List.cons_append]
    · rw [List.length_cons, hlen, List.count_cons_self]
    · rw [List.flatMap_cons, hfull]
      rfl
  | case3 a ih =>
    obtain ⟨ls, hls, hlen, hfull⟩ := ih ha.tail.tail
    refine ⟨⟨[], ['\r', '\n']⟩ :: ls, fun r => ?_, ?_, ?_⟩
    · rw [List.cons_append, List.cons_append, sourceLines, hls, List.cons_append]
    · rw [List.length_cons, hlen, List.count_cons_of_ne (by decide), List.count_cons_self]
    · rw [List.flatMap_cons, hfull]
      rfl
  | case4 c a hc hcr ih =>
    obtain ⟨ls, hls, hlen, hfull⟩ := ih ha.tail
    have hne : a ≠ [] := by
      rintro rfl
      exact hc (Option.some.inj (ha.resolve_left (List.cons_ne_nil c [])))
    have hlines : ls ≠ [] := by
      rintro rfl
      exact hne hfull.symm
    refine ⟨consLine c ls, fun r => ?_, ?_, ?_⟩
    · have hb : isBreak (c :: (a ++ r)) = false := by
        refine isBreak_eq_false hc ?_
        intro r' hr hn
        refine head?_append_ne ha hcr r hr ?_
        rw [hn]
        rfl
      rw [List.cons_append, sourceLines_cons_of_not_isBreak hb, hls, consLine_append c hlines]
    · rw [length_consLine c hlines, hlen, List.count_cons_of_ne hc]
    · rw [flatMap_full_consLine, hfull]

/-- The first line holds what the text has before its first break, and there is always a first
line. -/
theorem exists_sourceLines_eq_cons (s : List Char) :
    ∃ br ls, sourceLines s = ⟨untilBreak s, br⟩ :: ls := by
  fun_induction sourceLines s with
  | case1 => exact ⟨[], [], rfl⟩
  | case2 rest ih => exact ⟨_, _, rfl⟩
  | case3 rest ih => exact ⟨_, _, rfl⟩
  | case4 c rest hc hcr ih =>
    obtain ⟨br, ls, hls⟩ := ih
    refine ⟨br, ls, ?_⟩
    rw [hls, Lexis.untilBreak, isBreak_eq_false hc hcr, if_neg Bool.false_ne_true]
    rfl

theorem length_sourceLines (s : List Char) : (sourceLines s).length = s.count '\n' + 1 := by
  fun_induction sourceLines s with
  | case1 => rfl
  | case2 rest ih => rw [List.length_cons, ih, List.count_cons_self]
  | case3 rest ih =>
    rw [List.length_cons, ih, List.count_cons_of_ne (by decide), List.count_cons_self]
  | case4 c rest hc _ ih =>
    have hne : sourceLines rest ≠ [] := by
      obtain ⟨br, ls, hls⟩ := exists_sourceLines_eq_cons rest
      rw [hls]
      exact List.cons_ne_nil _ _
    rw [length_consLine c hne, ih, List.count_cons_of_ne hc]

/-! ## 2. The line behind a text -/

variable {a r : List Char}

theorem lineOffset_eq (ha : StartsLine a) : lineOffset (a ++ r) (a.count '\n') = a.length := by
  obtain ⟨ls, hls, hlen, hfull⟩ := exists_sourceLines_append ha
  rw [lineOffset, hls, ← hlen, List.take_left, hfull]

theorem lineContent_eq (ha : StartsLine a) :
    lineContent (a ++ r) (a.count '\n') = untilBreak r := by
  obtain ⟨ls, hls, hlen, -⟩ := exists_sourceLines_append ha
  obtain ⟨br, ms, hr⟩ := exists_sourceLines_eq_cons r
  rw [lineContent, hls, ← hlen, hr, List.getElem?_append_right (Nat.le_refl _), Nat.sub_self]
  rfl

end Text

namespace Document

variable {d : Document} {n : Nat}

/-- **A line starts behind the lines of the text before it.** -/
theorem startOf_eq_lineOffset (hn : n < d.lineCount) : d.startOf n = Text.lineOffset d.text n := by
  rw [lineCount_eq_count] at hn
  obtain ⟨a, r, ht, ha, rfl⟩ := exists_startsLine (Nat.le_of_lt_succ hn)
  rw [startOf_eq ht ha, ht, Text.lineOffset_eq ha]

/-- **A line holds what the line of the text with its number does.** -/
theorem contentOf_eq_lineContent (hn : n < d.lineCount) :
    d.contentOf n = Text.lineContent d.text n := by
  rw [lineCount_eq_count] at hn
  obtain ⟨a, r, ht, ha, rfl⟩ := exists_startsLine (Nat.le_of_lt_succ hn)
  rw [contentOf_eq ht ha, ht, Text.lineContent_eq ha]

end Document

end SmartEnter
