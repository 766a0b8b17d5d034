/-
# The edit never deletes what the user wrote

The answer to a client is one edit, whose places are counted in code units of the client's encoding.
Read back on lines that end at line feeds, they are the start of a line break and a place behind it
with nothing but blanks between the two.  The edit puts in the same break with blanks behind it and
perhaps the opener of a comment (`TextEdit.KeepsText`).  So all that it takes away are blanks right
behind a break.

That holds of every document and of every place that a client may name, with every codec and with
all settings that are accepted.  The document may be full of control characters and of terminators
that the buffer does not count: what was found in it is a break with blanks behind it
(`Typed.exists_parts`), and the rest follows from these parts.

An edit cannot be found only if a level is too wide to be written (`onEnter_keepsText`,
`onEnter_too_wide`).  The sizes of accepted settings are positive, so there is no division by zero
to be feared, and the width is all that is left.  An edit that is found can be sent unless one of
its numbers is too large for the protocol, and no number of an edit is larger than the document is
long (`le_numberLimit_of_edit`).
-/
import SmartEnter.Proofs.Client.BeforeEnter
import SmartEnter.Proofs.Enter.TooWide
import SmartEnter.Proofs.Style.Accepted

namespace SmartEnter

namespace Text.Codec

theorem length_le_length (e : Codec) (s : List Char) : s.length ≤ e.length s := by
  induction s with
  | nil => exact Nat.le_refl 0
  | cons c s ih =>
    have := e.units_pos c
    rw [List.length_cons, length_cons]
    omega

theorem length_le_of_sublist (e : Codec) {s t : List Char} (h : s.Sublist t) :
    e.length s ≤ e.length t := by
  induction h with
  | slnil => exact Nat.le_refl 0
  | cons c _ ih =>
    rw [length_cons]
    omega
  | cons_cons c _ ih =>
    rw [length_cons, length_cons]
    omega

end Text.Codec

namespace Client

open Text (isBlank Codec)

/-- The edit takes the place of a break `br`, which is the whole of the one that ends the line above
`line`, and of blanks `b` behind it, and puts in the break and `s`.  All parts of the text are
named, so that what is kept and what is not can be read off the fields. -/
structure TextEdit.KeepsText (edit : TextEdit) (e : Codec) (language : Language)
    (source : List Char) (line : Nat) (p br b t s : List Char) : Prop where
  source_eq : source = p ++ br ++ (b ++ t)
  break_eq : br = ['\n'] ∨ br = ['\r', '\n']
  break_start : ({ text := source } : Document).endOf (line - 1) = p.length
  break_stop : ({ text := source } : Document).startOf line = (p ++ br).length
  blanks : ∀ c ∈ b, isBlank c = true
  lines : edit.start.line + 1 = line ∧ edit.stop.line = line
  start : edit.start.offset e { text := source } = p.length
  stop : edit.stop.offset e { text := source } = (p ++ br ++ b).length
  newText : edit.newText = br ++ s
  behind : ∃ b', (∀ c ∈ b', isBlank c = true) ∧ (s = b' ∨ s = b' ++ language.commentLead)
  apply : edit.apply e source = p ++ br ++ s ++ t

variable {p br b t s : List Char} {language : Language}

/-- The edit that answers a client keeps the text.  Nothing is asked of the place that the client
named. -/
theorem Parts.keepsText (h : Parts p br b t) (e : Codec)
    (hs : ∃ b', (∀ c ∈ b', isBlank c = true) ∧ (s = b' ∨ s = b' ++ language.commentLead)) :
    (answerEdit e p br b t s).KeepsText e language (clientText p br b t) (p.count '\n' + 1)
      p br b t s where
  source_eq := rfl
  break_eq := h.break_eq
  break_start := h.endOf_above
  break_stop := h.startOf_line
  blanks := h.blanks
  lines := ⟨rfl, rfl⟩
  start := h.offset_start e s
  stop := h.offset_stop e s
  newText := by
    simp only [answerEdit, typedText, Typed.edit, clientText, List.take_left, List.drop_left]
  behind := hs
  apply := h.apply_edit e s

/-! ## 1. Numbers of the edit

The numbers of an edit are counts of lines and of code units of the document, and so none of them is
larger than the document is long. -/

theorem number_of_le {field : String} {n : Nat} (h : n ≤ numberLimit) : number field n = .ok n := by
  rw [number, if_pos (by omega), Int.toNat_natCast]

theorem number_of_lt {field : String} {n : Nat} (h : numberLimit < n) :
    number field n = .error ⟨field, n⟩ := if_neg (by omega)

/-- A place with numbers that are not too large can be sent, and no other one can. -/
theorem ofInts_cases (pos : ClientPosition) :
    ClientPosition.ofInts pos.line pos.character = .ok pos ∨
      (numberLimit < pos.line ∨ numberLimit < pos.character) ∧
        ∃ e, ClientPosition.ofInts pos.line pos.character = .error e := by
  unfold ClientPosition.ofInts
  by_cases hline : pos.line ≤ numberLimit
  · by_cases hcharacter : pos.character ≤ numberLimit
    · rw [number_of_le hline, number_of_le hcharacter]
      exact .inl rfl
    · rw [number_of_le hline, number_of_lt (Nat.not_le.1 hcharacter)]
      exact .inr ⟨.inr (Nat.not_le.1 hcharacter), _, rfl⟩
  · rw [number_of_lt (Nat.not_le.1 hline)]
    exact .inr ⟨.inl (Nat.not_le.1 hline), _, rfl⟩

/-- An edit can be sent as it is, unless a number of its places is too large.  No number is changed
on the way. -/
theorem TextEdit.checked_cases (edit : TextEdit) :
    edit.checked = .ok edit ∨
      (∃ pos ∈ [edit.start, edit.stop], numberLimit < pos.line ∨ numberLimit < pos.character) ∧
        ∃ e, edit.checked = .error e := by
  unfold TextEdit.checked
  rcases ofInts_cases edit.start with hstart | ⟨hwide, e, hstart⟩
  · rcases ofInts_cases edit.stop with hstop | ⟨hwide, e, hstop⟩
    · rw [hstart, hstop]
      exact .inl rfl
    · rw [hstart, hstop]
      exact .inr ⟨⟨edit.stop, by simp, hwide⟩, e, rfl⟩
  · rw [hstart]
    exact .inr ⟨⟨edit.start, by simp, hwide⟩, e, rfl⟩

/-- The numbers of an edit are not too large if the document is not too long.  The lines are fewer
than the characters and one more, and a column is the width of a part of the text. -/
theorem le_numberLimit_of_edit {e : Codec} {source new : List Char} {typed : Typed} {line : Nat}
    (hline : line < ({ text := source } : Document).lineCount)
    (h : e.length source ≤ numberLimit) {pos : ClientPosition}
    (hpos : pos ∈ [(typed.edit e source line new).start, (typed.edit e source line new).stop]) :
    pos.line ≤ numberLimit ∧ pos.character ≤ numberLimit := by
  have hbreaks : source.count '\n' ≤ numberLimit :=
    Nat.le_trans List.count_le_length (Nat.le_trans (e.length_le_length source) h)
  rw [Document.lineCount_eq_count] at hline
  have hle : line ≤ numberLimit := Nat.le_trans (Nat.le_of_lt_succ hline) hbreaks
  have hpart : ∀ m n : Nat, e.length ((source.take n).drop m) ≤ numberLimit := fun m n =>
    Nat.le_trans (e.length_le_of_sublist ((List.drop_sublist m _).trans (List.take_sublist n _))) h
  rw [List.mem_cons, List.mem_singleton] at hpos
  rcases hpos with rfl | rfl
  · exact ⟨Nat.le_trans (Nat.sub_le line 1) hle, hpart _ _⟩
  · exact ⟨hle, hpart _ _⟩

/-! ## 2. The answer

The answer is the edit that was found or the failure to find one, and the limit of the protocol is
looked at last. -/

section Answer

variable [Text.Memory] {w : Workspace} {uri : String} {opened : OpenDocument}
  {pos : ClientPosition} {tabSize : Int}

/-- **An edit is found only for parts of the document.**  It puts blanks behind their break, and
perhaps the opener of a comment. -/
theorem exists_parts_of_onEnter {edit : TextEdit} (hopen : w.document? uri = some opened)
    (hlang : languageFor opened.languageId uri = some language)
    (h : onEnter w uri pos tabSize = .ok (some edit)) :
    ∃ p br b t s, Parts p br b t ∧ opened.text = clientText p br b t ∧
      pos.line = p.count '\n' + 1 ∧ edit = answerEdit w.codec p br b t s ∧
      ∃ b', (∀ c ∈ b', isBlank c = true) ∧ (s = b' ∨ s = b' ++ language.commentLead) := by
  cases htyped : Typed.of? w.codec opened.text pos with
  | none =>
    rw [onEnter_of_not_typed hopen htyped] at h
    cases h
  | some typed =>
    obtain ⟨p, br, b, t, hparts, htext, rfl, hline⟩ := Typed.exists_parts htyped
    rw [onEnter_of_typed hopen hlang htext htyped hline] at h
    cases hd : Enter.Decision.of language w.settings.formatters (w.settings.optionsFor language.id)
        (pressEditor language tabSize (p ++ t) p.length) with
    | error f =>
      rw [hd] at h
      cases h
    | ok decision =>
      rw [hd] at h
      obtain ⟨text, hinserted, rfl⟩ := Option.map_eq_some_iff.1 (Except.ok.inj h)
      obtain ⟨s, rfl, hs⟩ := Enter.Decision.exists_behind hd hinserted
      exact ⟨p, br, b, t, s, hparts, htext, hline, rfl, hs⟩

/-- With positive sizes there is a failure only where a level is too wide.  The level is one of the
buffer before the press. -/
theorem tooWide_of_onEnter {f : Indent.Failure}
    (hpos : (w.settings.optionsFor language.id).Positive) (hopen : w.document? uri = some opened)
    (hlang : languageFor opened.languageId uri = some language)
    (h : onEnter w uri pos tabSize = .error f) :
    ∃ v, f = .width v ∧ ∃ typed, Typed.of? w.codec opened.text pos = some typed ∧
      (pressEditor language tabSize (typed.before opened.text) typed.breakStart).TooWide language
        w.settings.formatters (w.settings.optionsFor language.id) v := by
  cases htyped : Typed.of? w.codec opened.text pos with
  | none =>
    rw [onEnter_of_not_typed hopen htyped] at h
    cases h
  | some typed =>
    obtain ⟨p, br, b, t, -, htext, rfl, hline⟩ := Typed.exists_parts htyped
    rw [onEnter_of_typed hopen hlang htext htyped hline] at h
    cases hd : Enter.Decision.of language w.settings.formatters (w.settings.optionsFor language.id)
        (pressEditor language tabSize (p ++ t) p.length) with
    | ok decision =>
      rw [hd] at h
      cases h
    | error f' =>
      rw [hd] at h
      cases h
      obtain ⟨v, rfl, hwide⟩ := (Enter.Decision.of_eq_error_iff hpos).1 hd
      refine ⟨v, rfl, _, rfl, ?_⟩
      rwa [htext, Parts.before]

/-- What is answered is the edit that was found, or the failure to find one, unless the edit cannot
be sent. -/
theorem reply_cases (w : Workspace) (uri : String) (pos : ClientPosition) (tabSize : Int) :
    reply w uri pos tabSize = (onEnter w uri pos tabSize).mapError .indent ∨
      ∃ edit e, onEnter w uri pos tabSize = .ok (some edit) ∧
        (∃ q ∈ [edit.start, edit.stop], numberLimit < q.line ∨ numberLimit < q.character) ∧
        reply w uri pos tabSize = .error (.outOfRange e) := by
  rw [reply]
  cases onEnter w uri pos tabSize with
  | error f => exact .inl rfl
  | ok answer =>
    cases answer with
    | none => exact .inl rfl
    | some edit =>
      rcases edit.checked_cases with hedit | ⟨hwide, e, hedit⟩
      · left
        simp only [Except.mapError, bind, Except.bind, hedit]
        rfl
      · right
        refine ⟨edit, e, rfl, hwide, ?_⟩
        simp only [Except.mapError, bind, Except.bind, hedit]
        rfl

/-- An edit that was found is sent, unless the document is longer than the protocol can count. -/
theorem reply_eq_or_too_long (hopen : w.document? uri = some opened)
    (hlang : languageFor opened.languageId uri = some language) (pos : ClientPosition)
    (tabSize : Int) :
    reply w uri pos tabSize = (onEnter w uri pos tabSize).mapError .indent ∨
      numberLimit < w.codec.length opened.text ∧
        ∃ e, reply w uri pos tabSize = .error (.outOfRange e) := by
  refine (reply_cases w uri pos tabSize).imp_right ?_
  rintro ⟨edit, e, hedit, ⟨q, hq, hwide⟩, hreply⟩
  obtain ⟨p, br, b, t, s, hparts, htext, -, rfl, -⟩ := exists_parts_of_onEnter hopen hlang hedit
  refine ⟨Nat.not_le.1 fun hlength => ?_, e, hreply⟩
  rw [htext] at hlength
  have hlines := hparts.lineCount
  have hle := le_numberLimit_of_edit (by omega) hlength hq
  omega

/-- **The edit never deletes what the user wrote.**  There is no edit for a failure only if a level
is too wide to be put in.  What is found is answered as it is, unless the document is longer than
the protocol can count.  The settings are any that a style file can give, the place is any that a
client can name, and the codec is any codec. -/
theorem onEnter_keepsText {table : Style.Table}
    (hsettings : Style.Settings.ofTable table = .ok w.settings)
    (hopen : w.document? uri = some opened)
    (hlang : languageFor opened.languageId uri = some language) (pos : ClientPosition)
    (tabSize : Int) :
    (∀ edit, onEnter w uri pos tabSize = .ok (some edit) →
      ∃ p br b t s, edit.KeepsText w.codec language opened.text pos.line p br b t s) ∧
    (∀ f, onEnter w uri pos tabSize = .error f → ∃ v, f = .width v ∧
      ∃ typed, Typed.of? w.codec opened.text pos = some typed ∧
        (pressEditor language tabSize (typed.before opened.text) typed.breakStart).TooWide language
          w.settings.formatters (w.settings.optionsFor language.id) v) ∧
    (reply w uri pos tabSize = (onEnter w uri pos tabSize).mapError .indent ∨
      numberLimit < w.codec.length opened.text ∧
        ∃ e, reply w uri pos tabSize = .error (.outOfRange e)) := by
  have hpos := (Style.Settings.positive_of_ofTable hsettings).options language.id
  refine ⟨fun edit hedit => ?_, fun f => tooWide_of_onEnter hpos hopen hlang,
    reply_eq_or_too_long hopen hlang pos tabSize⟩
  obtain ⟨p, br, b, t, s, hparts, htext, hline, rfl, hs⟩ :=
    exists_parts_of_onEnter hopen hlang hedit
  rw [htext, hline]
  exact ⟨p, br, b, t, s, hparts.keepsText w.codec hs⟩

end Answer

/-- Behind a brace, the break of two characters is kept, and the blank behind it makes way for one
level. -/
theorem onEnter_keepsText_behind_brace :
    let _ := Text.Memory.kilobyte
    let text := ['{', '\r', '\n', ' ', 'x']
    let w : Workspace := { documents := [⟨"a.c", "c", text⟩] }
    let edit : TextEdit := ⟨⟨0, 1⟩, ⟨1, 1⟩, ['\r', '\n', ' ', ' ', ' ', ' ']⟩
    Style.Settings.ofTable [] = .ok w.settings ∧
      w.document? "a.c" = some ⟨"a.c", "c", text⟩ ∧ languageFor "c" "a.c" = some .c ∧
      onEnter w "a.c" ⟨1, 1⟩ 4 = .ok (some edit) ∧
      reply w "a.c" ⟨1, 1⟩ 4 = .ok (some edit) ∧
      ∃ p br b t s, edit.KeepsText Text.Encoding.utf16.codec .c text 1 p br b t s := by
  intro _ text w edit
  have hsettings : Style.Settings.ofTable [] = .ok w.settings := rfl
  have hopen : w.document? "a.c" = some ⟨"a.c", "c", text⟩ := rfl
  have hlang : languageFor "c" "a.c" = some .c := rfl
  have htyped : Typed.of? w.codec text ⟨1, 1⟩ =
      some (typedText ['{'] ['\r', '\n'] [' ']) := by decide
  have hlexemes : Language.c.lexis.lexemes ['{', 'x'] =
      [⟨.lbrace, ['{']⟩, ⟨.identifier, ['x']⟩] := by cbv
  have hdecision : Enter.Decision.of .c [] {} (pressEditor .c 4 ['{', 'x'] 1) =
      .ok (.deepen .lbrace [' ', ' ', ' ', ' ']) := by
    rw [Enter.Decision.of, Enter.Site.of, Language.tokens, Lexis.tokens, pressEditor, hlexemes]
    decide
  have hedit : onEnter w "a.c" ⟨1, 1⟩ 4 = .ok (some edit) :=
    (onEnter_of_typed hopen hlang rfl htyped rfl 4).trans (congrArg (_ <$> ·) hdecision)
  obtain ⟨hkeeps, -, hanswered⟩ := onEnter_keepsText hsettings hopen hlang ⟨1, 1⟩ 4
  have hlength : w.codec.length text = 5 := rfl
  have hreply : reply w "a.c" ⟨1, 1⟩ 4 = .ok (some edit) := by
    rcases hanswered with hreply | ⟨hlong, -⟩
    · rw [hreply, hedit]
      rfl
    · exact absurd (Nat.lt_of_lt_of_eq hlong hlength) (by decide)
  exact ⟨hsettings, hopen, hlang, hedit, hreply, hkeeps edit hedit⟩

/-- A width is accepted however great it is, and then there may be no answer.  The level would take
more characters than there are indices. -/
theorem onEnter_too_wide :
    let _ := Text.Memory.kilobyte
    let w : Workspace :=
      { settings := { defaults := { size := 0x8000000000000000 } }
        documents := [⟨"a.c", "c", ['{', '\n']⟩] }
    Style.Settings.ofTable [("indent", .table [("indent_size", .int 0x8000000000000000)])] =
        .ok w.settings ∧
      w.document? "a.c" = some ⟨"a.c", "c", ['{', '\n']⟩ ∧ languageFor "c" "a.c" = some .c ∧
      onEnter w "a.c" ⟨1, 0⟩ 4 = .error (.width .noCount) ∧
      reply w "a.c" ⟨1, 0⟩ 4 = .error (.indent (.width .noCount)) := by
  intro _ w
  have hopen : w.document? "a.c" = some ⟨"a.c", "c", ['{', '\n']⟩ := rfl
  have hlang : languageFor "c" "a.c" = some .c := rfl
  have htyped : Typed.of? w.codec ['{', '\n'] ⟨1, 0⟩ = some (typedText ['{'] ['\n'] []) := by
    decide
  have hlexemes : Language.c.lexis.lexemes ['{'] = [⟨.lbrace, ['{']⟩] := by cbv
  have hdecision : Enter.Decision.of .c [] { size := 0x8000000000000000 } (pressEditor .c 4 ['{'] 1)
      = .error (.width .noCount) := by
    rw [Enter.Decision.of, Enter.Site.of, Language.tokens, Lexis.tokens, pressEditor, hlexemes]
    decide
  have hfails : onEnter w "a.c" ⟨1, 0⟩ 4 = .error (.width .noCount) :=
    (onEnter_of_typed hopen hlang rfl htyped rfl 4).trans (congrArg (_ <$> ·) hdecision)
  have hreply : reply w "a.c" ⟨1, 0⟩ 4 = .error (.indent (.width .noCount)) := by
    rw [reply, hfails]
    rfl
  exact ⟨rfl, hopen, hlang, hfails, hreply⟩

end Client

end SmartEnter
