/-
# The line that a refusal shows

A place that a document does not have is refused with a diagnostic, which shows the line of the
place and a mark under its column.  The document ends its lines at line feeds, but the diagnostic
looks the line up as a text display would, which ends lines at every terminator.

* What is shown is the line of the display that has the number of the place, and the mark stands
  under a character of it or right behind it (`shows_sourceLine`).
* That line is the one of the document if line feeds are the only terminators of the text
  (`shownLine_eq_contentOf`), and then nothing is shown for a line outside the text.

What a diagnostic shows is said of the text that it is printed as, and not of its fields (`Shows`):
the last two rows are the line with its number and a mark under the line.  There is one such line in
the text at most, since rows are told apart by line feeds and none of the parts has one.  So two
statements about what is shown can be compared, and it makes sense that something is *not* shown
(`shows_iff`).

A line of the document that has another terminator in it is no line of a display.  Every line can be
refused, for the column before it, so one such line is enough for one refusal that shows something
else; that is the other half of the equivalence.

Main statement: all refusals show the lines they are about exactly if line feeds are the only
terminators (`refusals_show_lines_iff`).
-/
import SmartEnter.Proofs.Document.DisplayLines
import SmartEnter.Proofs.Document.Partition

namespace SmartEnter

open Text (isTerminator sourceLines PlainBreaks)

/-- Behind the last occurrence of a character there is one text only, and so there is before it. -/
theorem Text.eq_of_append_cons_eq {a b u v : List Char} {c : Char} (hu : c ∉ u) (hv : c ∉ v)
    (h : a ++ c :: u = b ++ c :: v) : a = b ∧ u = v := by
  rcases List.append_eq_append_iff.1 h with ⟨w, rfl, hw⟩ | ⟨w, rfl, hw⟩
  · cases w with
    | nil => exact ⟨(List.append_nil a).symm, (List.cons.inj hw).2⟩
    | cons d w =>
      refine absurd ?_ hu
      rw [(List.cons.inj hw).2]
      exact List.mem_append_right _ List.mem_cons_self
  · cases w with
    | nil => exact ⟨List.append_nil b, (List.cons.inj hw).2.symm⟩
    | cons d w =>
      refine absurd ?_ hv
      rw [(List.cons.inj hw).2]
      exact List.mem_append_right _ List.mem_cons_self

namespace Diagnostic

variable {d : Diagnostic} {text : List Char} {k : Nat}

/-! ## 1. What a diagnostic shows

The printed diagnostic is taken apart from its end, where the row of the line and the mark stand. -/

/-- The row that shows a line: its number, a bar and the text of the line. -/
def row (number : Int) (text : List Char) : List Char :=
  (toString number).toList ++ [' ', '|', ' '] ++ text

/-- Whatever the file is called, the diagnostic ends with the row of a line and with a mark under
the `k`-th character of the line, counted from one. -/
def Shows (d : Diagnostic) (number : Int) (text : List Char) (k : Nat) : Prop :=
  ∀ file, ∃ above under, (d.render file).toList =
      above ++ '\n' :: row number text ++ '\n' :: (under ++ ['^']) ∧
    '\n' ∉ under ∧ '^' ∉ under ∧ (under ++ ['^']).length = (row number []).length + k

theorem newline_not_mem_toString (n : Int) : '\n' ∉ (toString n).toList := by
  have hdigits : ∀ m : Nat, '\n' ∉ m.repr.toList := fun m hmem => by
    rw [Nat.toList_repr] at hmem
    exact absurd (Nat.isDigit_of_mem_toDigits (by decide) (by decide) hmem) (by decide)
  rw [Int.toString_eq_repr, Int.repr_eq_if]
  split
  · exact hdigits _
  · rw [String.toList_append, List.mem_append]
    rintro (hmem | hmem)
    · exact absurd hmem (by decide)
    · exact hdigits _ hmem

theorem newline_not_mem_row (number : Int) (htext : '\n' ∉ text) : '\n' ∉ row number text := by
  intro hmem
  rcases List.mem_append.1 hmem with hmem | hmem
  · rcases List.mem_append.1 hmem with hmem | hmem
    · exact newline_not_mem_toString number hmem
    · exact absurd hmem (by decide)
  · exact htext hmem

theorem newline_not_mem_sourceLine (d : Diagnostic) : '\n' ∉ d.sourceLine := by
  intro hmem
  unfold sourceLine at hmem
  split at hmem
  · cases hmem
  · exact absurd (Text.not_isTerminator_of_mem_displayLine hmem) (by decide)

/-- A diagnostic shows the line that it looks up, and marks it where it says. -/
theorem shows_sourceLine (d : Diagnostic) :
    d.Shows d.line d.sourceLine (d.markOffset + 1) := by
  intro file
  let gutter := List.replicate ((toString d.line).length + 1) ' '
  refine ⟨"error: ".toList ++ d.message.toList ++ '\n' :: (gutter ++ "--> ".toList ++ file.toList ++
      ':' :: (toString d.line).toList ++ ':' :: (toString d.column).toList ++
      '\n' :: (gutter ++ ['|'])),
    gutter ++ ['|', ' '] ++ List.replicate d.markOffset ' ', ?_, ?_, ?_, ?_⟩
  · simp [render, row, gutter]
  · simp [gutter]
  · simp [gutter]
  · simp only [row, gutter, List.length_append, List.length_replicate, List.length_cons,
      List.length_nil, String.length_toList]
    omega

/-- **A diagnostic shows one line only**, at one column.  The last row and the one before it are
found again in the printed text. -/
theorem shows_iff (htext : '\n' ∉ text) :
    d.Shows d.line text k ↔ text = d.sourceLine ∧ k = d.markOffset + 1 := by
  constructor
  · intro h
    obtain ⟨above, under, hrender, hline, -, hlength⟩ := h ""
    obtain ⟨above', under', hrender', hline', -, hlength'⟩ := d.shows_sourceLine ""
    rw [hrender] at hrender'
    have hmark : ∀ {u : List Char}, '\n' ∉ u → '\n' ∉ u ++ ['^'] := fun hu hmem => by
      rcases List.mem_append.1 hmem with hmem | hmem
      · exact hu hmem
      · exact absurd hmem (by decide)
    -- no line feed is in the last two rows, so they can be told apart from the end of the text
    obtain ⟨habove, hunder⟩ := Text.eq_of_append_cons_eq (hmark hline) (hmark hline') hrender'
    obtain ⟨-, hrows⟩ := Text.eq_of_append_cons_eq (newline_not_mem_row _ htext)
      (newline_not_mem_row _ d.newline_not_mem_sourceLine) habove
    refine ⟨List.append_cancel_left hrows, ?_⟩
    rw [hunder, hlength'] at hlength
    omega
  · rintro ⟨rfl, rfl⟩
    exact d.shows_sourceLine

end Diagnostic

namespace Document

variable {d : Document} {line column : Int} {e : PositionError} {text : List Char} {n k : Nat}

/-! ## 2. What a refusal shows

A refusal is printed for the place that was asked for, so its line and its mark are functions of
that place and of the text. -/

/-- Where the mark of a column stands under a text, counted from one: under the character in the
column, under the first one for a column before the text, and behind the last one for a column
further right. -/
def markUnder (column : Int) (text : List Char) : Nat :=
  (min (max (column + 1) 1) (text.length + 1)).toNat

/-- The line that is looked up in a display.  Numbers below zero have none, although they count
lines from the end elsewhere. -/
def shownLine (d : Document) (line : Int) : List Char :=
  if line < 0 then [] else Text.displayLine d.text line.toNat

/-- The diagnostic shows the line of a place with a mark under the column, and nothing for a line
that the document does not have. -/
structure ShowsPlace (d : Document) (line column : Int) (report : Diagnostic) : Prop where
  inside : 0 ≤ line → line < d.lineCount → ∃ text, d.lineText line = .ok text ∧
    report.Shows (line + 1) text (markUnder column text)
  outside : line < 0 ∨ d.lineCount ≤ line → report.Shows (line + 1) [] 1

theorem sourceLine_of_offsetAt (h : d.offsetAt line column = .error e) :
    (e.diagnostic d.text).sourceLine = d.shownLine line := by
  have hline : (e.diagnostic d.text).line = line + 1 := congrArg (· + 1) (eq_of_offsetAt_error h).1
  have hsign : line + 1 ≤ 0 ↔ line < 0 := Int.add_one_le_iff
  rw [Diagnostic.sourceLine, hline, shownLine, Int.add_sub_cancel]
  simp only [hsign]
  rfl

/-- **What a refusal shows**: the line of the display, and nothing else, with the mark under the
column as far as the line goes. -/
theorem shows_iff_of_offsetAt (h : d.offsetAt line column = .error e) (htext : '\n' ∉ text) :
    (e.diagnostic d.text).Shows (line + 1) text k ↔
      text = d.shownLine line ∧ k = markUnder column text := by
  obtain ⟨hline, hcolumn⟩ := eq_of_offsetAt_error h
  have hline : (e.diagnostic d.text).line = line + 1 := congrArg (· + 1) hline
  have hcolumn : (e.diagnostic d.text).column = column + 1 := congrArg (· + 1) hcolumn
  have hmark : (e.diagnostic d.text).markOffset + 1 = markUnder column (d.shownLine line) := by
    rw [Diagnostic.markOffset, hcolumn, sourceLine_of_offsetAt h, markUnder]
    omega
  rw [← hline, Diagnostic.shows_iff htext, sourceLine_of_offsetAt h, hmark]
  refine and_congr_right fun heq => ?_
  rw [heq]

theorem newline_not_mem_shownLine (d : Document) (line : Int) : '\n' ∉ d.shownLine line := by
  intro hmem
  unfold shownLine at hmem
  split at hmem
  · cases hmem
  · exact absurd (Text.not_isTerminator_of_mem_displayLine hmem) (by decide)

/-! ## 3. The line of the document

What is shown is the line of a display.  It is the line of the document as well exactly if the two
split the text in the same way. -/

/-- **If line feeds are the only terminators**, the display shows the line of the document. -/
theorem shownLine_eq_contentOf (h : PlainBreaks d.text) (hn : n < d.lineCount) :
    d.shownLine n = d.contentOf n := by
  rw [shownLine, if_neg (Int.not_lt.2 (Int.natCast_nonneg n)), Int.toNat_natCast,
    Text.displayLine_eq_lineContent h, contentOf_eq_lineContent hn]

/-- Then it shows no line that the document does not have. -/
theorem shownLine_eq_nil (h : PlainBreaks d.text) (hline : line < 0 ∨ d.lineCount ≤ line) :
    d.shownLine line = [] := by
  rw [shownLine]
  split
  · rfl
  · have hnone : (sourceLines d.text)[line.toNat]? = none :=
      List.getElem?_eq_none (by rw [length_sourceLines]; omega)
    rw [Text.displayLine_eq_lineContent h, Text.lineContent, hnone]
    rfl

theorem showsPlace_of_plainBreaks (h : PlainBreaks d.text)
    (he : d.offsetAt line column = .error e) : d.ShowsPlace line column (e.diagnostic d.text) where
  inside hfrom hto := by
    obtain ⟨n, rfl⟩ := Int.eq_ofNat_of_zero_le hfrom
    have hn : n < d.lineCount := Int.ofNat_lt.1 hto
    obtain ⟨htext, hfree⟩ := d.partitioned.lineText n hn
    exact ⟨_, htext, (shows_iff_of_offsetAt he hfree).2 ⟨(shownLine_eq_contentOf h hn).symm, rfl⟩⟩
  outside hline := by
    refine (shows_iff_of_offsetAt he List.not_mem_nil).2 ⟨(shownLine_eq_nil h hline).symm, ?_⟩
    rw [markUnder, List.length_nil]
    omega

/-- Every line can be refused, for the column before it.  So every line of a document is shown by
some refusal. -/
theorem exists_refusal (d : Document) (n : Nat) : ∃ e, d.offsetAt n (-1) = .error e :=
  (d.finds n (-1)).refused_iff.2 (.inr (.inr (.inl (by decide))))

/-- A document whose refusals show its lines has no terminator in them.  Each line is refused at the
column before it, and what the refusal shows is free of terminators. -/
theorem plainBreaks_of_showsPlace (h : ∀ line column e, d.offsetAt line column = .error e →
    d.ShowsPlace line column (e.diagnostic d.text)) : PlainBreaks d.text := by
  refine Text.plainBreaks_of_sourceLines fun l hl => ?_
  obtain ⟨n, hn⟩ := List.mem_iff_getElem?.1 hl
  have hlt : n < d.lineCount := by
    rw [← length_sourceLines]
    exact (List.getElem?_eq_some_iff.1 hn).1
  obtain ⟨e, he⟩ := d.exists_refusal n
  obtain ⟨text, htext, hshows⟩ :=
    (h _ _ e he).inside (Int.natCast_nonneg n) (Int.ofNat_lt.2 hlt)
  obtain ⟨hcontent, hfree⟩ := d.partitioned.lineText n hlt
  rw [htext] at hcontent
  obtain rfl := Except.ok.inj hcontent
  rw [getElem?_sourceLines hlt] at hn
  obtain rfl := Option.some.inj hn
  have hshown := ((shows_iff_of_offsetAt he hfree).1 hshows).1
  intro c hc
  rw [hshown, shownLine, if_neg (Int.not_lt.2 (Int.natCast_nonneg n))] at hc
  exact Text.not_isTerminator_of_mem_displayLine hc

/-- **Which refusals show their lines.**  All refusals of a document show the lines they are about,
with the mark under the column, and nothing for a line outside the text, exactly if line feeds,
alone or behind a carriage return, are the only terminators of the text.  In any text, what is shown
is the line of the display that has the number. -/
theorem refusals_show_lines_iff (d : Document) :
    ((∀ line column e, d.offsetAt line column = .error e →
        d.ShowsPlace line column (e.diagnostic d.text)) ↔ PlainBreaks d.text) ∧
      ∀ line column e, d.offsetAt line column = .error e →
        (e.diagnostic d.text).Shows (line + 1) (d.shownLine line)
          (markUnder column (d.shownLine line)) :=
  ⟨⟨plainBreaks_of_showsPlace, fun h _ _ _ => showsPlace_of_plainBreaks h⟩,
    fun line _ _ he => (shows_iff_of_offsetAt he (d.newline_not_mem_shownLine line)).2 ⟨rfl, rfl⟩⟩

/-- A column behind the end of a line, a line that is empty, and one that is not there. -/
theorem refusals_show_lines_iff_before_last_line :
    let d : Document := { text := ['\t', 'x', '\r', '\n'] }
    PlainBreaks d.text ∧ d.offsetAt 0 9 = .error (.columnOutside 0 9 2) ∧
      d.ShowsPlace 0 9 ((PositionError.columnOutside 0 9 2).diagnostic d.text) ∧
      d.offsetAt 1 3 = .error (.columnOutside 1 3 0) ∧
      d.ShowsPlace 1 3 ((PositionError.columnOutside 1 3 0).diagnostic d.text) ∧
      d.offsetAt 2 0 = .error (.lineOutside 2 0 2) ∧
      d.ShowsPlace 2 0 ((PositionError.lineOutside 2 0 2).diagnostic d.text) := by
  intro d
  have hplain : PlainBreaks d.text := Text.OnlyLineFeeds.plainBreaks (by
    unfold Text.OnlyLineFeeds
    decide)
  have hshows := (refusals_show_lines_iff d).1.2 hplain
  have hfar : d.offsetAt 0 9 = .error (.columnOutside 0 9 2) := by decide
  have hempty : d.offsetAt 1 3 = .error (.columnOutside 1 3 0) := by decide
  have hbelow : d.offsetAt 2 0 = .error (.lineOutside 2 0 2) := by decide
  exact ⟨hplain, hfar, hshows _ _ _ hfar, hempty, hshows _ _ _ hempty, hbelow,
    hshows _ _ _ hbelow⟩

/-- **A form feed ends the line that is shown**, but not the line of the document. -/
theorem not_showsPlace_at_form_feed :
    let d : Document := { text := ['a', '\x0C', 'b'] }
    let report := (PositionError.columnOutside 0 9 3).diagnostic d.text
    d.offsetAt 0 9 = .error (.columnOutside 0 9 3) ∧ report.Shows 1 ['a'] 2 ∧
      ¬d.ShowsPlace 0 9 report := by
  intro d report
  have he : d.offsetAt 0 9 = .error (.columnOutside 0 9 3) := by decide
  have hfree : '\n' ∉ ['a', '\x0C', 'b'] := by decide
  refine ⟨he, (shows_iff_of_offsetAt he (by decide)).2 (by decide), fun h => ?_⟩
  obtain ⟨text, htext, hshows⟩ := h.inside (by decide) (by decide)
  have hline : d.lineText 0 = .ok ['a', '\x0C', 'b'] := by decide
  rw [hline] at htext
  obtain rfl := Except.ok.inj htext
  exact absurd ((shows_iff_of_offsetAt he hfree).1 hshows).1 (by decide)

end Document

end SmartEnter
