/-
# Documents with carriage returns in front of their line feeds

The document with carriage returns has the lines of the document without: each starts where it did,
as far as places move (`startOf_withReturns`), and holds what it held (`contentOf_withReturns`).  An
offset lies on the same line (`lineNumber_withReturns`), and the same indent is found
(`indent_withReturns`).

The text is without carriage returns at first, so that each of those that are put in belongs to a
break of its own.  One that stood before a line feed already would be joined by another one, which
would then be a character of its line.  All that changes is where a line starts, by one for each
line feed before it, and where its break starts not at all.
-/
import SmartEnter.Indent
import SmartEnter.Proofs.Text.Returns

namespace SmartEnter

open Text (addReturns returned)

namespace Document

/-- The document with a carriage return in front of every line feed. -/
def withReturns (d : Document) : Document := { d with text := addReturns d.text }

variable {d : Document} {n : Nat}

@[simp] theorem text_withReturns (d : Document) : d.withReturns.text = addReturns d.text := rfl

theorem startOf_withReturns (hn : n < d.lineCount) :
    d.withReturns.startOf n = returned d.text (d.startOf n) := by
  rw [lineCount_eq_count] at hn
  obtain ⟨a, r, ht, ha, rfl⟩ := exists_startsLine (Nat.le_of_lt_succ hn)
  have ht' : d.withReturns.text = addReturns a ++ addReturns r := by
    rw [text_withReturns, ht, Text.addReturns_append]
  have hstart := startOf_eq ht' (Text.startsLine_addReturns ha)
  rw [Text.count_addReturns] at hstart
  rw [hstart, startOf_eq ht ha, ht, Text.returned_length_left]

theorem contentOf_withReturns (hcr : '\r' ∉ d.text) (hn : n < d.lineCount) :
    d.withReturns.contentOf n = d.contentOf n := by
  rw [lineCount_eq_count] at hn
  obtain ⟨a, r, ht, ha, rfl⟩ := exists_startsLine (Nat.le_of_lt_succ hn)
  have ht' : d.withReturns.text = addReturns a ++ addReturns r := by
    rw [text_withReturns, ht, Text.addReturns_append]
  have hcontent := contentOf_eq ht' (Text.startsLine_addReturns ha)
  rw [ht, List.mem_append, not_or] at hcr
  rw [Text.count_addReturns, Text.untilBreak_addReturns hcr.2] at hcontent
  rw [hcontent, contentOf_eq ht ha]

theorem take_withReturns (d : Document) (n : Nat) :
    d.withReturns.text.take (returned d.text n) = addReturns (d.text.take n) ∧
      d.withReturns.text.drop (returned d.text n) = addReturns (d.text.drop n) := by
  have h : d.withReturns.text = addReturns (d.text.take n) ++ addReturns (d.text.drop n) := by
    rw [← Text.addReturns_append, List.take_append_drop]
    rfl
  rw [h]
  exact ⟨List.take_left, List.drop_left⟩

theorem returned_le_length (d : Document) (n : Nat) :
    returned d.text n ≤ d.withReturns.text.length := by
  have h := (d.take_withReturns n).1
  rw [returned, ← h]
  exact List.length_take_le' _ _

/-- An offset is on the line that it was on, as there are as many line feeds before it. -/
theorem lineNumber_withReturns (hn : n ≤ d.text.length) :
    d.withReturns.lineNumber (returned d.text n : Nat) = d.lineNumber n := by
  rw [lineNumber_eq_count (d.returned_le_length n), (d.take_withReturns n).1,
    lineNumber_eq_count hn, Text.count_addReturns]

/-- The document shows the indent that it showed, since the lines hold what they held. -/
theorem indent_withReturns (hcr : '\r' ∉ d.text) :
    Indent.ofDocument d.withReturns = Indent.ofDocument d := by
  have h := Text.map_content_sourceLines_addReturns hcr
  have hmap : ∀ lines : List Text.Line, lines.map (·.content.takeWhile Text.isBlank) =
      (lines.map Text.Line.content).map (·.takeWhile Text.isBlank) := by
    intro lines
    rw [List.map_map]
    rfl
  rw [Indent.ofDocument, Indent.ofDocument, hmap, hmap, text_withReturns, h]

end Document

end SmartEnter
