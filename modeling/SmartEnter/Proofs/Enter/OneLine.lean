/-
# Enter touches one line

A press that puts a text in breaks the caret's line in two.  The line feed comes first, so the part
of the line before the caret is a line of its own; the rest of the line goes on behind what was put
in and keeps the break it had.  All other lines keep their texts and their breaks
(`press_breaksLine`).

Two line breaks could come about by accident, where a carriage return comes to stand before a line
feed.  The caret is not right behind a carriage return, so the new line feed stands alone.  What is
put in behind it may end with a carriage return only where it is the opener of a comment, and there
the line goes on behind the caret (`Decision.exists_unbroken`).
-/
import SmartEnter.Proofs.Document.BrokenLine
import SmartEnter.Proofs.Enter.Press

namespace SmartEnter.Enter

open Lexis (untilBreak)
open Text (isBlank Unbroken)

variable {language : Language} {formatters : Formatters} {options : Indent.Options} {e : Editor}
  {decision : Decision} {r : Result} {text : List Char} {c : Nat}

theorem untilBreak_ne_nil_of_behind (hle : c ≤ e.document.text.length)
    (h : (Site.of language e.document c).behind.any (!isBlank ·) = true) :
    untilBreak (e.document.text.drop c) ≠ [] := by
  intro hnil
  have hbehind : (Site.of language e.document c).behind = [] :=
    (Document.slice_endOf hle).trans hnil
  rw [hbehind] at h
  cases h

/-- **What is put in behind the line feed** ends no line, and it does not make the rest of the
caret's line end otherwise than before. -/
theorem Decision.exists_unbroken [Text.Memory] (hlead : '\n' ∉ language.commentLead)
    (hcaret : e.caret = c) (hle : c ≤ e.document.text.length)
    (h : Decision.of language formatters options e = .ok decision)
    (hi : decision.inserted = some text) :
    ∃ s, text = '\n' :: s ∧ Unbroken s (e.document.text.drop c) := by
  rcases Decision.inserted_cases h hi with ⟨b, hb, rfl⟩ | ⟨b, hb, rfl⟩
  · exact ⟨b, rfl, Text.unbroken_of_isBlank hb _⟩
  · have hsite := (Decision.of_eq_splitComment_iff.1 h).2.1.2
    rw [hcaret] at hsite
    refine ⟨b ++ language.commentLead, (Option.some.inj hi).symm,
      Text.not_mem_of_isBlank_or hb hlead (.inr rfl), fun _ => ?_⟩
    exact Lexis.head?_ne_of_untilBreak_ne_nil (untilBreak_ne_nil_of_behind hle hsite)

/-- **Enter touches one line only.**  A press that uses the key up breaks the caret's line in two
at the caret: the first part ends with a line feed, and what is put in stands in front of the second
part, which has the break of the line.  Every line above stays as it is, and every line below is the
same one further down. -/
theorem press_breaksLine [Text.Memory] (hlead : '\n' ∉ language.commentLead) (hcaret : e.caret = c)
    (hpos : 1 ≤ c) (hle : c ≤ e.document.text.length) (hcr : e.document.text[c - 1]? ≠ some '\r')
    (h : press language formatters options (some e) = .ok r) (hstop : r.outcome = .stop) :
    ∃ s, r.insertion = some ⟨c, '\n' :: s⟩ ∧
      e.document.BreaksLine (r.apply e.document) (e.document.lineNumber c) c s := by
  obtain ⟨decision, hdecision, rfl⟩ := press_eq_ok_iff.1 h
  cases hi : decision.inserted with
  | none =>
    rw [Decision.result_of_not_inserted hi] at hstop
    cases hstop
  | some text =>
    obtain ⟨s, rfl, hs⟩ := Decision.exists_unbroken hlead hcaret hle hdecision hi
    obtain ⟨-, hinsertion⟩ := Decision.result_of_inserted (e := e) hi
    rw [hcaret] at hinsertion
    have happly : (decision.result e).apply e.document = e.document.insert c ('\n' :: s) := by
      rw [Result.apply, hstop, hinsertion]
    have hlast : (e.document.text.take c).getLast? ≠ some '\r' := by
      rwa [Text.getLast?_take_of_le hpos hle]
    rw [happly]
    exact ⟨s, hinsertion, Document.breaksLine_insert hle hlast hs⟩

/-- Behind a brace, one line is broken in two, and the break of two characters stays with the second
part. -/
theorem press_breaksLine_behind_brace :
    let _ := Text.Memory.kilobyte
    let d : Document := { text := ['x', '{', ';', '\r', '\n', 'y'] }
    let e : Editor := ⟨d, 2, { languages := ["c"] }⟩
    let r : Result := ⟨.stop, some ⟨2, ['\n', ' ', ' ', ' ', ' ']⟩, none⟩
    '\n' ∉ Language.c.commentLead ∧ d.text[1]? ≠ some '\r' ∧
      press .c [] {} (some e) = .ok r ∧ d.breakOf 0 = ['\r', '\n'] ∧
      ∃ s, r.insertion = some ⟨2, '\n' :: s⟩ ∧ d.BreaksLine (r.apply d) 0 2 s := by
  intro _ d e r
  have hlead : '\n' ∉ Language.c.commentLead := by decide
  have hcr : d.text[1]? ≠ some '\r' := by decide
  have hlexemes : Language.c.lexis.lexemes ['x', '{', ';', '\r', '\n', 'y'] =
      [⟨.identifier, ['x']⟩, ⟨.lbrace, ['{']⟩, ⟨.semicolon, [';']⟩, ⟨.newline, ['\r', '\n']⟩,
        ⟨.identifier, ['y']⟩] := by cbv
  have hpress : press .c [] {} (some e) = .ok r := by
    refine press_eq_ok_iff.2 ⟨.deepen .lbrace [' ', ' ', ' ', ' '], ?_, rfl⟩
    rw [Decision.of, Site.of, Language.tokens, Lexis.tokens, hlexemes]
    decide
  exact ⟨hlead, hcr, hpress, by decide,
    press_breaksLine hlead rfl (by decide : 1 ≤ 2) (by decide) hcr hpress rfl⟩

end SmartEnter.Enter
