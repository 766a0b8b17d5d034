/-
# A press from the command line

The program presses Enter once, at a line and a column that it was given.

* A place that is not in the text is refused, and only such a place is (`press_of_outside`).
* A text that is only to be read stays as it is (`press_readOnly`).
* In every other text the press puts in a line break and, behind it, blanks and perhaps the opener
  of a comment (`Breaks`).  Where the key is left to the next handler, it is the break alone.

Nothing else can happen, but for one thing: a level of the indent may be too wide to be written.
The widths of accepted settings are positive, and nothing bounds them (`press_safe`,
`press_too_wide`).

The three cases exclude one another and leave nothing out, so a press is described completely by the
place and by whether the text is only to be read.  That every place is one of the first case or has
an offset is a fact about documents (`Place.isIn_iff`).  What is put in is known from the decisions,
of which it is enough to know that they put in a break, blanks, and at most the opener of a comment,
because the language opens its comments within a line.

The lexing of the text is looked at as well, as a program that moves a cursor: it comes to its end
without a fault, unless the language has a block comment that opens and closes with nothing.
-/
import SmartEnter.CommandLine.Run
import SmartEnter.Proofs.Document.Lookup
import SmartEnter.Proofs.Enter.TooWide
import SmartEnter.Proofs.Style.Accepted
import SmartEnter.Proofs.Token.Cursor

namespace SmartEnter.CommandLine

open Decimal (not_isWritable_of_le one_lt_pow_ten)
open Enter (Decision Editor Insertion Result Row Site)
open Text (isBlank)

/-- The place is one of the text: a line that it has, and a column of that line or the one behind
it. -/
structure Place.IsIn (p : Place) (s : List Char) : Prop where
  line_pos : 1 ≤ p.line
  line_le : p.line ≤ ({ text := s } : Document).lineCount
  column_pos : 1 ≤ p.column
  column_le : ∃ text, ({ text := s } : Document).lineText (p.line - 1) = .ok text ∧
    p.column ≤ text.length + 1

/-- The offset of the place in the text. -/
def Place.offset? (p : Place) (s : List Char) : Except PositionError Nat :=
  ({ text := s } : Document).offsetAt (p.line - 1) (p.column - 1)

/-- The place has an offset exactly if it is one of the text.  Both count from one here, and from
zero in the document. -/
theorem Place.isIn_iff {p : Place} {s : List Char} : p.IsIn s ↔ ∃ c, p.offset? s = .ok c := by
  simp only [Place.offset?, Document.offsetAt_eq_ok_iff]
  constructor
  · rintro ⟨hpos, hle, hcolumn, text, htext, hlength⟩
    have hline : p.line - 1 = ((p.line - 1).toNat : Int) := by omega
    rw [hline, Document.lineText_natCast (by omega)] at htext
    cases htext
    exact ⟨_, by omega, by omega, by omega, by omega, rfl⟩
  · rintro ⟨c, hpos, hlt, hcolumn, hlength, -⟩
    have hline : p.line - 1 = ((p.line - 1).toNat : Int) := by omega
    have htext := Document.lineText_natCast (d := { text := s }) (n := (p.line - 1).toNat)
      (by omega)
    rw [← hline] at htext
    exact ⟨by omega, by omega, by omega, _, htext, by omega⟩

/-- A place that is refused is named as it was given.  The numbers are taken apart and put together
again on the way. -/
theorem Place.eq_of_outside {p : Place} {s : List Char} {e : PositionError}
    (h : p.offset? s = .error e) :
    (e.diagnostic s).line = p.line ∧ (e.diagnostic s).column = p.column := by
  obtain ⟨hline, hcolumn⟩ := Document.eq_of_offsetAt_error h
  exact ⟨(congrArg (· + 1) hline).trans (Int.sub_add_cancel _ 1),
    (congrArg (· + 1) hcolumn).trans (Int.sub_add_cancel _ 1)⟩

theorem Place.offset?_of_lineCount_lt {p : Place} {s : List Char}
    (h : ({ text := s } : Document).lineCount < p.line) :
    p.offset? s = .error (.lineOutside (p.line - 1) (p.column - 1)
      ({ text := s } : Document).lineCount) := by
  rw [Place.offset?, Document.offsetAt, if_pos (.inr (by omega))]

namespace Request

/-- The editor with the caret at an offset of the text.  The program has no other document and no
viewer. -/
def editor (r : Request) (source : List Char) (c : Nat) : Editor where
  document := { text := source, writable := !r.readOnly }
  caret := c
  session := { languages := [r.language.id], tabWidth := r.settings.tabWidth }

def options (r : Request) : Indent.Options := r.settings.optionsFor r.language.id

/-- What is decided at an offset of the text. -/
def decision [Text.Memory] (r : Request) (source : List Char) (c : Nat) :
    Except Indent.Failure Decision :=
  Decision.of r.language r.settings.formatters r.options (r.editor source c)

end Request

variable {r : Request} {source : List Char} {c : Nat}

/-- What a press comes to: the break `'\n' :: s`, put in at an offset of a text.  The text that
comes out, the insertion and the caret are each described, and they belong together. -/
structure Pressing.Breaks (p : Pressing) (r : Request) (source : List Char) (c : Nat)
    (s : List Char) : Prop where
  text : p.document.text = source.take c ++ '\n' :: s ++ source.drop c
  insertion : p.result.insertion = some ⟨c, '\n' :: s⟩
  behind : ∃ b, (∀ x ∈ b, isBlank x = true) ∧ (s = b ∨ s = b ++ r.language.commentLead)
  deferred : p.result.outcome = .defer → s = []
  lineCount : p.document.lineCount = ({ text := source } : Document).lineCount + 1
  caret : p.result.caretAfter p.document r.settings.tabWidth = .ok p.caret

/-! ## 1. The steps of a press

A press from the command line is a look-up of the place, a decision, and what is made of it.  The
three are separated here, so that what follows is about decisions and not about the program. -/

theorem press_of_outside [Text.Memory] {e : PositionError} (h : r.place.offset? source = .error e) :
    press r source = .error (.place (e.diagnostic source)) := by
  have hplace : ({ text := source, writable := !r.readOnly } : Document).offsetAt
      (r.place.line - 1) (r.place.column - 1) = .error e := h
  rw [press]
  dsimp only
  rw [hplace]
  rfl

theorem press_of_inside [Text.Memory] (h : r.place.offset? source = .ok c) :
    press r source =
      carryOut r.name (r.editor source c) <$> (r.decision source c).mapError .indent := by
  have hplace : ({ text := source, writable := !r.readOnly } : Document).offsetAt
      (r.place.line - 1) (r.place.column - 1) = .ok c := h
  rw [press]
  dsimp only
  rw [hplace]
  change (Except.mapError PressFailure.indent (r.decision source c)).bind _ = _
  cases r.decision source c <;> rfl

/-- A line below the text is refused, but a number with too many digits cannot be named. -/
theorem exists_unwritable [Text.Memory]
    (h : ({ text := source } : Document).lineCount < r.place.line)
    (hline : ¬Decimal.IsWritable r.place.line) :
    ∃ d, press r source = .error (.place d) ∧ ¬d.IsWritable := by
  have hplace := Place.offset?_of_lineCount_lt h
  refine ⟨_, press_of_outside hplace, fun hwritable => hline ?_⟩
  rw [← (Place.eq_of_outside hplace).1]
  exact hwritable.1

/-- A text that is put in at the caret, with the break in front.  It is enough that the rest of the
text is on one line; the line count and the caret then follow. -/
theorem breaks_insertAtCaret {result : Result} {s : List Char} {log : List LogLine}
    (hc : c ≤ source.length) (hs : '\n' ∉ s) (hresult : result.insertion = some ⟨c, '\n' :: s⟩)
    (hbehind : ∃ b, (∀ x ∈ b, isBlank x = true) ∧ (s = b ∨ s = b ++ r.language.commentLead))
    (hdeferred : result.outcome = .defer → s = []) :
    (insertAtCaret (r.editor source c) result ⟨c, '\n' :: s⟩ log).Breaks r source c s := by
  have htext : (({ text := source, writable := !r.readOnly } : Document).insert c ('\n' :: s)).text
      = source.take c ++ '\n' :: s ++ source.drop c := Text.insertAt_natCast hc ('\n' :: s)
  refine ⟨htext, hresult, hbehind, hdeferred, ?_, ?_⟩
  · rw [Document.lineCount_eq_count, Document.lineCount_eq_count]
    refine congrArg (· + 1) ((congrArg (List.count '\n') htext).trans ?_)
    rw [List.count_append, List.count_append, List.count_cons_self, List.count_eq_zero.2 hs,
      Nat.zero_add, Nat.add_right_comm, ← List.count_append, List.take_append_drop]
  · rw [insertAtCaret, Result.caretAfter]
    dsimp only
    rw [hresult]
    cases result.caret <;> rfl

/-! ## 2. What a press comes to

First for a text that is only to be read, then for any other one, by cases on what the decision puts
in. -/

/-- A text that is only to be read is left as it is, whatever the decision would be for one that may
be changed. -/
theorem press_of_readOnly [Text.Memory] (hc : r.place.offset? source = .ok c)
    (hro : r.readOnly = true) :
    ∃ log, press r source = .ok (leave (r.editor source c) log) := by
  have hwritable : (r.editor source c).document.writable = false := congrArg (!·) hro
  have hlanguage : r.language.id ∈ (r.editor source c).session.languages :=
    List.mem_singleton_self _
  have hviewer : (r.editor source c).session.viewer ≠ true := Bool.false_ne_true
  have hdecision : r.decision source c = .ok .readOnly := by
    rw [Request.decision, Decision.of, if_neg (not_not_intro hlanguage), if_neg hviewer, hwritable]
    rfl
  have hcarry : carryOut r.name (r.editor source c) .readOnly = leave (r.editor source c) _ :=
    if_pos (congrArg (!·) hwritable)
  rw [press_of_inside hc, hdecision]
  exact ⟨_, congrArg Except.ok hcarry⟩

/-- **In a text that is only to be read**, nothing is put in, and the key is left to the next
handler. -/
theorem press_readOnly [Text.Memory] (hc : r.place.offset? source = .ok c)
    (hro : r.readOnly = true) :
    ∃ p, press r source = .ok p ∧ p.document.text = source ∧ p.result = .deferred := by
  obtain ⟨log, hlog⟩ := press_of_readOnly hc hro
  exact ⟨_, hlog, rfl, rfl⟩

/-- **In any other text**, a line break is put in, unless a level is too wide.  A key that is left
to the next handler gets a plain break. -/
theorem press_writable [Text.Memory] (hs : r.settings.Positive)
    (hlead : '\n' ∉ r.language.commentLead)
    (hc : r.place.offset? source = .ok c) (hro : r.readOnly = false) :
    (∃ p s, press r source = .ok p ∧ p.Breaks r source c s) ∨
      ∃ w, press r source = .error (.indent (.width w)) ∧
        (r.editor source c).TooWide r.language r.settings.formatters r.options w := by
  have hle : c ≤ source.length := Document.le_of_offsetAt hc
  rw [press_of_inside hc]
  cases hdecision : r.decision source c with
  | error f =>
    obtain ⟨w, rfl, hwide⟩ := (Decision.of_eq_error_iff (hs.options r.language.id)).1 hdecision
    exact .inr ⟨w, rfl, hwide⟩
  | ok decision =>
    have hwritable : (r.editor source c).document.writable = true := congrArg (!·) hro
    refine .inl ⟨carryOut r.name (r.editor source c) decision, ?_⟩
    cases hinserted : decision.inserted with
    | none =>
      -- the key is left to the next handler, so a plain break is put in
      refine ⟨[], rfl, ?_⟩
      rw [carryOut, hinserted, hwritable]
      exact breaks_insertAtCaret hle List.not_mem_nil rfl ⟨[], by simp, .inl rfl⟩ fun _ => rfl
    | some text =>
      obtain ⟨s, rfl, b, hb, hbehind⟩ := Decision.exists_behind hdecision hinserted
      obtain ⟨houtcome, hinsertion⟩ :=
        Decision.result_of_inserted (e := r.editor source c) hinserted
      have hline : '\n' ∉ s := Text.not_mem_of_isBlank_or hb hlead hbehind
      refine ⟨s, rfl, ?_⟩
      rw [carryOut, hinserted]
      refine breaks_insertAtCaret hle hline hinsertion ⟨b, hb, hbehind⟩ fun hdefer => ?_
      rw [houtcome] at hdefer
      cases hdefer

theorem Pressing.Breaks.newline_not_mem {p : Pressing} {s : List Char} (h : p.Breaks r source c s)
    (hlead : '\n' ∉ r.language.commentLead) : '\n' ∉ s := by
  obtain ⟨b, hb, hs⟩ := h.behind
  exact Text.not_mem_of_isBlank_or hb hlead hs

/-- What a press that has a result makes of its text.  This is all that the run needs to know about
a press. -/
theorem text_of_press [Text.Memory] {p : Pressing} (hs : r.settings.Positive)
    (hlead : '\n' ∉ r.language.commentLead) (h : press r source = .ok p) :
    ∃ c, r.place.offset? source = .ok c ∧ (r.readOnly = true → p.document.text = source) ∧
      (r.readOnly = false → ∃ s, '\n' ∉ s ∧
        p.document.text = source.take c ++ '\n' :: s ++ source.drop c) := by
  cases hplace : r.place.offset? source with
  | error e =>
    rw [press_of_outside hplace] at h
    cases h
  | ok c =>
    refine ⟨c, rfl, fun hro => ?_, fun hro => ?_⟩
    · obtain ⟨p', hp, htext, -⟩ := press_readOnly hplace hro
      rw [h] at hp
      cases hp
      exact htext
    · rcases press_writable hs hlead hplace hro with ⟨p', s, hp, hbreaks⟩ | ⟨w, hp, -⟩
      · rw [h] at hp
        cases hp
        exact ⟨s, hbreaks.newline_not_mem hlead, hbreaks.text⟩
      · rw [h] at hp
        cases hp

/-- A level that is too wide ends the press, and the failure is that of the level. -/
theorem press_of_tooWide [Text.Memory] {w : Text.RepeatFailure} (hs : r.settings.Positive)
    (hc : r.place.offset? source = .ok c)
    (h : (r.editor source c).TooWide r.language r.settings.formatters r.options w) :
    press r source = .error (.indent (.width w)) := by
  have hdecision : r.decision source c = .error (.width w) :=
    (Decision.of_eq_error_iff (hs.options r.language.id)).2 ⟨w, rfl, h⟩
  rw [press_of_inside hc, hdecision]
  rfl

/-- **A press from the command line is safe.**  With accepted settings and a language whose comment
opener is on one line, reading the text ends.  A place is refused exactly if it is not one of the
text, and what is said about it can be printed exactly if its numbers can.  A text that is only to
be read stays as it is.  In every other one a line break is put in at the place, with blanks and
perhaps a comment opener behind it, and with nothing if the key is left to the next handler.  The
press has no result only if it has to put in a level that is too wide for a text. -/
theorem press_safe [Text.Memory] {table : Style.Table}
    (hsettings : Style.Settings.ofTable table = .ok r.settings)
    (hlead : '\n' ∉ r.language.commentLead)
    (hblock : r.language.lexis.blockComment ≠ some ([], [])) :
    (∀ n, source.length < n →
        Cursor.read n r.language.lexis source = pure (r.language.tokens source)) ∧
      (¬r.place.IsIn source → ∃ e, r.place.offset? source = .error e ∧
        press r source = .error (.place (e.diagnostic source)) ∧
        (e.diagnostic source).line = r.place.line ∧
        (e.diagnostic source).column = r.place.column ∧
        ((e.diagnostic source).IsWritable ↔ r.place.IsWritable)) ∧
      (r.place.IsIn source → ∃ c, r.place.offset? source = .ok c ∧
        (r.readOnly = true →
          ∃ p, press r source = .ok p ∧ p.document.text = source ∧ p.result = .deferred) ∧
        (r.readOnly = false →
          (∃ p s, press r source = .ok p ∧ p.Breaks r source c s) ∨
            ∃ w, press r source = .error (.indent (.width w)) ∧
              (r.editor source c).TooWide r.language r.settings.formatters r.options w)) := by
  have hpos := Style.Settings.positive_of_ofTable hsettings
  refine ⟨fun _ hn => Cursor.read_eq_tokens hblock hn, fun hout => ?_, fun hin => ?_⟩
  · cases hplace : r.place.offset? source with
    | ok c => exact absurd (Place.isIn_iff.2 ⟨c, hplace⟩) hout
    | error e =>
      obtain ⟨hline, hcolumn⟩ := Place.eq_of_outside hplace
      refine ⟨e, rfl, press_of_outside hplace, hline, hcolumn, ?_⟩
      rw [Diagnostic.IsWritable, hline, hcolumn, Place.IsWritable]
  · obtain ⟨c, hc⟩ := Place.isIn_iff.1 hin
    exact ⟨c, hc, press_readOnly hc, press_writable hpos hlead hc⟩

/-- Behind a brace there is one level, with the settings of an empty table. -/
theorem press_safe_behind_brace :
    let _ := Text.Memory.kilobyte
    let r : Request := ⟨"a.c", ⟨1, 2⟩, .c, {}, false⟩
    Style.Settings.ofTable [] = .ok r.settings ∧ '\n' ∉ r.language.commentLead ∧
      r.language.lexis.blockComment ≠ some ([], []) ∧ r.place.IsIn ['{'] ∧
      ∃ p s, press r ['{'] = .ok p ∧ p.Breaks r ['{'] 1 s := by
  intro _ r
  have hsettings : Style.Settings.ofTable [] = .ok r.settings := rfl
  have hlead : '\n' ∉ r.language.commentLead := by decide
  have hblock : r.language.lexis.blockComment ≠ some ([], []) := by decide
  have hplace : r.place.offset? ['{'] = .ok 1 := rfl
  have hin : r.place.IsIn ['{'] := Place.isIn_iff.2 ⟨1, hplace⟩
  obtain ⟨c, hc, -, hwritable⟩ := (press_safe hsettings hlead hblock).2.2 hin
  obtain rfl : 1 = c := Except.ok.inj (hplace.symm.trans hc)
  refine ⟨hsettings, hlead, hblock, hin, (hwritable rfl).resolve_right ?_⟩
  rintro ⟨w, -, hwide⟩
  exact absurd hwide.wide (by decide)

/-- A width is accepted however great it is, and then the level of the brace is no text; and a place
outside of the text may have a line whose number is too long for a message. -/
theorem press_too_wide :
    let _ := Text.Memory.kilobyte
    let s : Style.Settings := { defaults := { size := 0x8000000000000000 } }
    let far : Place := ⟨(Nat.pow 10 Decimal.digitLimit : Nat), 1⟩
    Style.Settings.ofTable [("indent", .table [("indent_size", .int 0x8000000000000000)])] = .ok s ∧
      (⟨1, 2⟩ : Place).IsIn ['{'] ∧
      press ⟨"a.c", ⟨1, 2⟩, .c, s, false⟩ ['{'] = .error (.indent (.width .noCount)) ∧
      ¬far.IsIn ['{'] ∧
      ∃ d, press ⟨"a.c", far, .c, {}, false⟩ ['{'] = .error (.place d) ∧ ¬d.IsWritable := by
  intro _ s far
  have hfar : ({ text := ['{'] } : Document).lineCount < far.line :=
    Int.ofNat_lt.2 (one_lt_pow_ten (Nat.succ_ne_zero 4299))
  have hout : ¬far.IsIn ['{'] := fun hin => absurd hin.line_le (Int.not_le.2 hfar)
  let r : Request := ⟨"a.c", ⟨1, 2⟩, .c, s, false⟩
  have hplace : r.place.offset? ['{'] = .ok 1 := rfl
  have hlexemes : Language.c.lexis.lexemes ['{'] = [⟨.lbrace, ['{']⟩] := by cbv
  have hdecision : Decision.of .c [] { size := 0x8000000000000000 } (r.editor ['{'] 1) =
      .error (.width .noCount) := by
    rw [Decision.of, Site.of, Language.tokens, Lexis.tokens, Request.editor, hlexemes]
    decide
  have hpress : press r ['{'] = .error (.indent (.width .noCount)) :=
    (press_of_inside hplace).trans (congrArg (_ <$> Except.mapError _ ·) hdecision)
  exact ⟨rfl, Place.isIn_iff.2 ⟨1, hplace⟩, hpress, hout,
    exists_unwritable hfar (not_isWritable_of_le (Nat.le_refl _))⟩

end SmartEnter.CommandLine
