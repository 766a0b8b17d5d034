/-
# The caret that the program reports

The program reports where the caret is after its one press.  Where the press used up the key, this
is the caret behind the text that was put in, as in an editor (`Request.ReportsCaret.stopped`).  A
key that is left to the next handler ends the line where it was pressed, so the caret starts the
next one; and in a text that is only to be read, the caret stays where it was.

An editor shows the caret that the decision chose, if it chose one, and looks up the place behind
the insertion if not.  The program does the same for a press that stops.  For the one decision that
chooses the place behind the insertion, which is to copy an indent, choosing and looking up come to
the same; for the one that splits a comment they do not, and it is the choice that is reported.

The offset of the place is the only thing that connects the program with the editor: the editor has
the text of the input, and its caret at that offset.

Main statement: `caret_is_reported`, for editors and for the program.
-/
import SmartEnter.Proofs.CommandLine.Press
import SmartEnter.Proofs.Document.Partition
import SmartEnter.Proofs.Enter.Caret

namespace SmartEnter.CommandLine

open Enter (Decision Editor Insertion Result)

variable {r : Request} {source : List Char} {c : Nat}

variable [Text.Memory]

/-- What an editor with the caret at the place would do with the key: the answer of the decision,
before anything is made of it. -/
def Request.answer (r : Request) (source : List Char) (c : Nat) : Except Indent.Failure Result :=
  Enter.press r.language r.settings.formatters r.options (some (r.editor source c))

/-- The program reports the caret of a press at the place that has the offset `c`: behind the text
that was put in, at the start of the next line, or at the place itself.  There is one field for each
of the three, and one for the line of the place. -/
structure Request.ReportsCaret (r : Request) (source : List Char) (c : Nat) : Prop where
  line : ((r.editor source c).document.lineNumber c : Int) = r.place.line - 1
  stopped : ∀ result, r.answer source c = .ok result → result.outcome = .stop →
    ∃ p, press r source = .ok p ∧ p.result = result ∧
      p.document = result.apply (r.editor source c).document ∧
      result.caretAfter p.document r.settings.tabWidth = .ok p.caret
  deferred : ∀ result, r.answer source c = .ok result → result.outcome = .defer →
    r.readOnly = false → ∃ p, press r source = .ok p ∧ p.result.outcome = .defer ∧
      p.document = (r.editor source c).document.insert c ['\n'] ∧
      p.caret = ⟨(r.editor source c).document.lineNumber c + 1, 0⟩
  readOnly : r.readOnly = true → ∃ p text, press r source = .ok p ∧ p.result.outcome = .defer ∧
    (r.editor source c).document.lineText (r.place.line - 1) = .ok text ∧
    p.caret = ⟨(r.editor source c).document.lineNumber c,
      Indent.displayWidth (text.take (r.place.column - 1).toNat) r.settings.tabWidth⟩

theorem press_of_decision {decision : Decision} (hplace : r.place.offset? source = .ok c)
    (h : r.decision source c = .ok decision) :
    press r source = .ok (carryOut r.name (r.editor source c) decision) := by
  rw [press_of_inside hplace, h]
  rfl

omit [Text.Memory] in
/-- A text is put in at the caret as an editor would do it, and the caret that is reported is the
one that the editor would have. -/
theorem caretAfter_insertAtCaret {e : Editor} {result : Result} {i : Insertion} {log : List LogLine}
    (h : result.insertion = some i) :
    result.caretAfter (insertAtCaret e result i log).document e.session.tabWidth =
      .ok (insertAtCaret e result i log).caret := by
  rw [Result.caretAfter, insertAtCaret, h]
  cases result.caret <;> rfl

theorem reportsCaret (hplace : r.place.offset? source = .ok c) : r.ReportsCaret source c where
  line := ((Document.finds _ _ _).found c hplace).2.1
  stopped result h hstop := by
    obtain ⟨decision, hdecision, rfl⟩ := Enter.press_eq_ok_iff.1 h
    refine ⟨_, press_of_decision hplace hdecision, ?_⟩
    cases hi : decision.inserted with
    | none =>
      rw [Decision.result_of_not_inserted hi] at hstop
      cases hstop
    | some text =>
      obtain ⟨-, hinsertion⟩ := Decision.result_of_inserted (e := r.editor source c) hi
      rw [carryOut, hi, Result.apply, hstop, hinsertion]
      exact ⟨rfl, rfl, caretAfter_insertAtCaret hinsertion⟩
  deferred result h hdefer hro := by
    obtain ⟨decision, hdecision, rfl⟩ := Enter.press_eq_ok_iff.1 h
    refine ⟨_, press_of_decision hplace hdecision, ?_⟩
    have hwritable : (r.editor source c).document.writable = true := congrArg (!·) hro
    cases hi : decision.inserted with
    | none =>
      rw [carryOut, hi, hwritable]
      exact ⟨rfl, rfl, Enter.caretBehind_insert_of_nonneg (Int.natCast_nonneg c) List.not_mem_nil⟩
    | some text =>
      rw [(Decision.result_of_inserted hi).1] at hdefer
      cases hdefer
  readOnly hro := by
    obtain ⟨log, hlog⟩ := press_of_readOnly hplace hro
    have hplace' : (r.editor source c).document.offsetAt (r.place.line - 1) (r.place.column - 1) =
        .ok c := hplace
    obtain ⟨text, htext, hbefore⟩ := Document.exists_text_before hplace'
    refine ⟨_, text, hlog, rfl, htext, ?_⟩
    rw [← hbefore]
    rfl

/-- **The caret is where it is reported.**  In an editor with any document and any caret, a key that
is used up leaves the caret behind the text that was put in: one line below, and as far to the right
as that text is wide behind its line feed.  Where a comment is split the caret is in the second
column, and where an indent is copied the caret that was chosen is the one that would be found.  The
program reports that caret too; it reports the start of the next line where the key is left to the
next handler, and the place itself in a text that is only to be read. -/
theorem caret_is_reported :
    (∀ {language : Language} {formatters : Enter.Formatters} {options : Indent.Options}
        {e : Editor} {result : Result}, '\n' ∉ language.commentLead →
      Enter.press language formatters options (some e) = .ok result → result.outcome = .stop →
      ∃ decision s, Decision.of language formatters options e = .ok decision ∧
        decision.ReportsCaret e result s) ∧
    ∀ {r : Request} {source : List Char} {c : Nat}, r.place.offset? source = .ok c →
      r.ReportsCaret source c :=
  ⟨Enter.reportsCaret_of_press, reportsCaret⟩

omit [Text.Memory] in
/-- A caret far behind the end of a line that a tab indents, and a place behind the tab. -/
theorem caret_is_reported_past_end :
    let _ := Text.Memory.kilobyte
    let e : Editor := ⟨{ text := ['\t', 'x'] }, 9, { languages := ["c"], tabWidth := 8 }⟩
    let result : Result := ⟨.stop, some ⟨9, ['\n', '\t']⟩, some ⟨1, 8⟩⟩
    let r : Request := ⟨"a.c", ⟨1, 2⟩, .c, {}, true⟩
    '\n' ∉ Language.c.commentLead ∧ Enter.press .c [] {} (some e) = .ok result ∧
      result.outcome = .stop ∧
      (∃ decision s, Decision.of .c [] {} e = .ok decision ∧ decision.ReportsCaret e result s) ∧
      r.place.offset? ['\t', 'x'] = .ok 1 ∧ r.ReportsCaret ['\t', 'x'] 1 := by
  intro _ e result r
  have hlead : '\n' ∉ Language.c.commentLead := by decide
  have hplace : r.place.offset? ['\t', 'x'] = .ok 1 := rfl
  have hpress : Enter.press .c [] {} (some e) = .ok result := by
    have hlexemes : Language.c.lexis.lexemes e.document.text =
        [⟨.ws, ['\t']⟩, ⟨.identifier, ['x']⟩] := by
      cbv
    have hdecision : Decision.of .c [] {} e = .ok (.copyIndent ['\t']) := by
      rw [Decision.of, Enter.Site.of, Language.tokens, Lexis.tokens, hlexemes]
      decide
    exact Enter.press_eq_ok_iff.2 ⟨_, hdecision, rfl⟩
  obtain ⟨heditor, hprogram⟩ := caret_is_reported
  exact ⟨hlead, hpress, rfl, heditor hlead hpress rfl, hplace, hprogram hplace⟩

end SmartEnter.CommandLine
