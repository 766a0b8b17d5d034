/-
# Where the caret goes

A press that puts a text in reports the caret behind it.  There are two ways to get there.  Two of
the decisions choose the caret from the document before the press; for the others it is looked up in
the document that comes out.

Both ways end behind the text that was put in, on the line below that of the caret
(`Decision.ReportsCaret`).  Only where a comment is split, the chosen column is that of the second
character, whatever the indent.

The caret may lie beyond the end of the text.  Then the text is put in at the end, and the place
behind it is beyond the end once more; it counts as the end on each of the three ways it is used
(`caretBehind_of_length_le`).  So every caret from zero on comes down to one in the text, and for
that the line behind the line feed is the text itself.

The width of the line is a sum over its characters, and tabs are as wide as the session says, which
may be any integer.  Nothing about it has to be known but that it is a function of the text behind
the line feed.

Main statement: `reportsCaret_of_press`.
-/
import SmartEnter.Proofs.Enter.LineEnding
import SmartEnter.Proofs.Enter.Press

namespace SmartEnter

/-! ## 1. Offsets beyond the end

An offset that lies beyond the end is drawn back in three places: where the text is put in, where
the line is looked up, and where the text before the caret is cut out. -/

theorem Text.bound_of_le {len : Nat} {i : Int} (h : (len : Int) ≤ i) : bound len i = len := by
  unfold bound
  split <;> omega

namespace Document

variable {d : Document} {offset : Int}

theorem lineNumber_of_length_le (h : (d.text.length : Int) ≤ offset) :
    d.lineNumber offset = d.lineNumber d.text.length := by
  simp only [lineNumber, Int.min_eq_right h, Int.min_self]

theorem insert_of_length_le (h : (d.text.length : Int) ≤ offset) (new : List Char) :
    d.insert offset new = d.insert d.text.length new := by
  simp only [insert, Text.insertAt, Text.bound_of_le h, Text.bound_of_le (Int.le_refl _)]

end Document

namespace Enter

variable {language : Language} {formatters : Formatters} {options : Indent.Options} {d : Document}
  {e : Editor} {r : Result} {caret tabWidth : Int} {s : List Char}

/-- At or beyond the end of the text, the offset of an insertion does not matter. -/
theorem caretBehind_of_length_le {i j : Insertion}
    (hi : (d.text.length : Int) ≤ i.offset + i.text.length)
    (hj : (d.text.length : Int) ≤ j.offset + j.text.length) :
    Result.caretBehind d i tabWidth = Result.caretBehind d j tabWidth := by
  simp only [Result.caretBehind, Document.lineNumber_of_length_le hi,
    Document.lineNumber_of_length_le hj, Text.slice, Text.bound_of_le hi, Text.bound_of_le hj]

/-- **Behind a line feed and the text of a line**, the caret stands on the line below, behind the
text, wherever it stood before. -/
theorem caretBehind_insert_of_nonneg (hcaret : 0 ≤ caret) (hs : '\n' ∉ s) :
    Result.caretBehind (d.insert caret ('\n' :: s)) ⟨caret, '\n' :: s⟩ tabWidth =
      ⟨d.lineNumber caret + 1, Indent.displayWidth s tabWidth⟩ := by
  have hinside : ∀ n ≤ d.text.length,
      Result.caretBehind (d.insert n ('\n' :: s)) ⟨n, '\n' :: s⟩ tabWidth =
        ⟨d.lineNumber n + 1, Indent.displayWidth s tabWidth⟩ := by
    intro n hn
    rw [caretBehind_insert hn hs, Document.lineNumber_eq_count hn]
  by_cases hle : caret ≤ d.text.length
  · have hnat : caret = (caret.toNat : Int) := by omega
    rw [hnat]
    exact hinside _ (by omega)
  · have hend : (d.text.length : Int) ≤ caret := by omega
    have hlength : (d.insert d.text.length ('\n' :: s)).text.length =
        d.text.length + ('\n' :: s).length := Text.length_insertAt _ _ _
    rw [Document.insert_of_length_le hend, Document.lineNumber_of_length_le hend,
      ← hinside _ (Nat.le_refl _)]
    refine caretBehind_of_length_le ?_ ?_
    · rw [hlength]
      push_cast
      omega
    · rw [hlength]
      push_cast
      omega

/-! ## 2. The caret of a press

By cases on the decision, of which only one chooses a caret that is not the place behind what was
put in. -/

/-- A result has its caret behind the text `s` that a decision puts in below the caret's line, and
in the second column where a comment is split.  The last field compares the two ways for the one
decision that has both. -/
structure Decision.ReportsCaret (decision : Decision) (e : Editor) (r : Result) (s : List Char) :
    Prop where
  insertion : r.insertion = some ⟨e.caret, '\n' :: s⟩
  split : ∀ indent lead, decision = .splitComment indent lead →
    r.caretAfter (r.apply e.document) e.session.tabWidth =
      .ok ⟨e.document.lineNumber e.caret + 1, 1⟩
  behind : (∀ indent lead, decision ≠ .splitComment indent lead) →
    r.caretAfter (r.apply e.document) e.session.tabWidth =
      .ok ⟨e.document.lineNumber e.caret + 1, Indent.displayWidth s e.session.tabWidth⟩
  copied : ∀ indent, decision = .copyIndent indent → ∃ caret, r.caret = some caret ∧
    ({ r with caret := none } : Result).caretAfter (r.apply e.document) e.session.tabWidth =
      .ok caret

theorem reportsCaret_of_inserted {decision : Decision}
    (hi : decision.inserted = some ('\n' :: s)) (hcaret : 0 ≤ e.caret) (hs : '\n' ∉ s) :
    decision.ReportsCaret e (decision.result e) s := by
  obtain ⟨houtcome, hinsertion⟩ := Decision.result_of_inserted (e := e) hi
  have happly : (decision.result e).apply e.document = e.document.insert e.caret ('\n' :: s) := by
    rw [Result.apply, houtcome, hinsertion]
  have hcarets : (decision.result e).caret =
      decision.caret (e.document.lineNumber e.caret) e.session.tabWidth := by
    rw [Decision.result, hi]
  have hdropped : ({ decision.result e with caret := none } : Result).caretAfter
      ((decision.result e).apply e.document) e.session.tabWidth =
        .ok ⟨e.document.lineNumber e.caret + 1, Indent.displayWidth s e.session.tabWidth⟩ := by
    rw [Result.caretAfter, happly, hinsertion, ← caretBehind_insert_of_nonneg hcaret hs]
  refine ⟨hinsertion, ?_, ?_, ?_⟩
  · rintro indent lead rfl
    rw [Result.caretAfter, hcarets]
    rfl
  · intro hsplit
    cases decision with
    | splitComment indent lead => exact absurd rfl (hsplit indent lead)
    | copyIndent indent =>
      cases hi
      rw [Result.caretAfter, hcarets]
      rfl
    | afterComment indent => exact hdropped
    | deepen opener indent => exact hdropped
    | _ => cases hi
  · rintro indent rfl
    cases hi
    exact ⟨_, hcarets, hdropped⟩

/-- **The caret is reported behind the text that was put in**, for every document and every caret:
on the line below that of the caret, and in the column that the text behind the line feed is wide.
Where a comment is split, it is the second column.  Where the indent is copied, the caret that was
chosen is the one that would be found behind the text. -/
theorem reportsCaret_of_press [Text.Memory] (hlead : '\n' ∉ language.commentLead)
    (h : press language formatters options (some e) = .ok r) (hstop : r.outcome = .stop) :
    ∃ decision s, Decision.of language formatters options e = .ok decision ∧
      decision.ReportsCaret e r s := by
  obtain ⟨decision, hdecision, rfl⟩ := press_eq_ok_iff.1 h
  cases hi : decision.inserted with
  | none =>
    rw [Decision.result_of_not_inserted hi] at hstop
    cases hstop
  | some text =>
    obtain ⟨s, rfl, b, hb, hs⟩ := Decision.exists_behind hdecision hi
    have hcaret := (accepts_of_inserted hdecision hi).caret_pos
    exact ⟨decision, s, hdecision, reportsCaret_of_inserted hi (Int.le_of_lt hcaret)
      (Text.not_mem_of_isBlank_or hb hlead hs)⟩

end Enter

end SmartEnter
