/-
# The client's Enter and the Enter of an editor

A client puts in its own line break, and maybe blanks behind it, before it asks what to do.  Let the
buffer before the press be `p ++ t`, with the caret between the two, and the document of the client
`p ++ br ++ b ++ t`, with a line break `br` and blanks `b` (`Parts`).

* The edit that answers the client takes the place of the break and the blanks, counted in any
  encoding, and keeps the break (`Parts.apply_edit`).
* Whatever is found to be put in is of this form, wherever the client says the cursor is: on a line
  that lies elsewhere on the screen, behind the end of a line, or within a character
  (`Typed.exists_parts`).
* What a client puts in at a caret is found again: the break starts behind `p`, the line behind
  `br`, and the cursor is behind `b` (`Inserted.typed`).  Cutting it out gives back `p ++ t`
  (`Parts.before`).

So the client is told nothing exactly if a press in an editor leaves the key to the next handler,
and otherwise it gets the text that the press puts in (`onEnter_eq_press`).

The four parts are the data of all statements here, and lines and columns are calculated from them
once and for all (section 1).  That is why the first two of the three points can be used for any
answer, while the third one needs more of the text: a client can be told what it put in only if its
lines are the lines of the buffer.  The one place that is left out is the one right behind a
carriage return.  A line feed that is put in there makes one break of the two, which is not the
break that the client put in.
-/
import SmartEnter.Proofs.Client.LeadingBlanks
import SmartEnter.Proofs.Document.Lines
import SmartEnter.Proofs.Enter.Press

namespace SmartEnter.Client

open Lexis (untilBreak)
open Text (isBlank Codec Unbroken)

variable {p br b t : List Char}

/-- A text with a line break in it, the whole of one, and blanks behind it.  The blanks need not be
all that stand there: the rest of the text may start with more of them. -/
structure Parts (p br b t : List Char) : Prop where
  break_eq : br = ['\n'] ∨ br = ['\r', '\n']
  blanks : ∀ c ∈ b, isBlank c = true
  /-- No carriage return before the break belongs to it. -/
  whole : p.getLast? = some '\r' → br ≠ ['\n']

/-- The document of the client, put together from its parts. -/
def clientText (p br b t : List Char) : List Char := p ++ br ++ (b ++ t)

/-- What the client put in. -/
def typedText (p br b : List Char) : Typed where
  breakStart := p.length
  lineStart := (p ++ br).length
  cursor := (p ++ br ++ b).length

/-- The edit that puts a text in behind the client's break, at the line of the cursor. -/
def answerEdit (e : Codec) (p br b t new : List Char) : TextEdit :=
  (typedText p br b).edit e (clientText p br b t) (p.count '\n' + 1) new

/-! ## 1. The edit

Lines and columns of the client's document are calculated from its four parts.  The break ends a
line, so the line of the cursor is the one behind it and the line above ends where the break starts;
the blanks are the whole of what the line has before the cursor. -/

namespace Parts

variable (h : Parts p br b t)

include h

theorem startsLine : StartsLine (p ++ br) := by
  refine .inr ?_
  rw [List.getLast?_append]
  rcases h.break_eq with hbr | hbr <;> rw [hbr] <;> rfl

theorem count_newlines : (p ++ br).count '\n' = p.count '\n' + 1 := by
  rw [List.count_append, Text.count_break h.break_eq]

theorem unbroken_blanks : Unbroken b t := Text.unbroken_of_isBlank h.blanks t

theorem lineCount :
    ({ text := clientText p br b t } : Document).lineCount =
      p.count '\n' + 1 + (b ++ t).count '\n' + 1 := by
  rw [Document.lineCount_eq_count, clientText, List.count_append, h.count_newlines]

omit h in
/-- Between the start of the line and the cursor stand the blanks, and nothing else. -/
theorem take_cursor :
    ((clientText p br b t).take ((p ++ br).length + b.length)).drop (p ++ br).length = b := by
  rw [clientText, List.take_length_add_append, List.take_left, List.drop_left]

theorem startOf_line :
    ({ text := clientText p br b t } : Document).startOf (p.count '\n' + 1) = (p ++ br).length := by
  rw [← h.count_newlines, Document.startOf_eq rfl h.startsLine]

theorem contentOf_line :
    ({ text := clientText p br b t } : Document).contentOf (p.count '\n' + 1) =
      b ++ untilBreak t := by
  rw [← h.count_newlines, Document.contentOf_eq rfl h.startsLine,
    Lexis.untilBreak_append h.unbroken_blanks]

theorem endOf_line :
    ({ text := clientText p br b t } : Document).endOf (p.count '\n' + 1) =
      (p ++ br).length + (b ++ untilBreak t).length := by
  rw [← h.count_newlines, Document.endOf_eq rfl h.startsLine,
    Lexis.untilBreak_append h.unbroken_blanks]

theorem endOf_above :
    ({ text := clientText p br b t } : Document).endOf (p.count '\n') = p.length := by
  have htext : ({ text := clientText p br b t } : Document).text = p ++ (br ++ (b ++ t)) :=
    List.append_assoc p br (b ++ t)
  have hbreak : untilBreak (br ++ (b ++ t)) = [] := by
    rcases h.break_eq with hbr | hbr <;> rw [hbr] <;> exact Lexis.untilBreak_eq_nil_iff.2 (.inr rfl)
  have hjoint : p.getLast? = some '\r' → (br ++ (b ++ t)).head? ≠ some '\n' := by
    intro hr
    rw [h.break_eq.resolve_left (h.whole hr)]
    simp
  rw [← Document.lineNumber_length htext,
    Document.endOf_lineNumber htext hjoint, hbreak]
  rfl

omit h in
/-- Cutting out what the client put in gives back the buffer before the press.  The blanks go with
the break, whoever put them in. -/
theorem before : (typedText p br b).before (clientText p br b t) = p ++ t := by
  have htake : (clientText p br b t).take p.length = p := by
    rw [clientText, List.append_assoc, List.take_left]
  have hdrop : (clientText p br b t).drop (p ++ br ++ b).length = t := by
    rw [clientText, ← List.append_assoc, List.drop_left]
  rw [Typed.before, typedText, htake, hdrop]

/-- The edit starts where the client's break starts.  The column is the width of the line above, and
that is found again at its end. -/
theorem offset_start (e : Codec) (new : List Char) :
    (answerEdit e p br b t new).start.offset e { text := clientText p br b t } = p.length := by
  have hline : p.count '\n' < ({ text := clientText p br b t } : Document).lineCount := by
    rw [h.lineCount]
    omega
  rw [← h.endOf_above, ← Document.startOf_add_length_contentOf hline]
  simp only [answerEdit, Typed.edit, ClientPosition.offset, Nat.add_sub_cancel, e.charsFor_length]

/-- The edit stops at the cursor, which is as many units to the right as there are blanks. -/
theorem offset_stop (e : Codec) (new : List Char) :
    (answerEdit e p br b t new).stop.offset e { text := clientText p br b t } =
      (p ++ br ++ b).length := by
  simp only [answerEdit, typedText, Typed.edit, ClientPosition.offset]
  have hlength : (p ++ br ++ b).length = (p ++ br).length + b.length := List.length_append
  rw [hlength, take_cursor, h.startOf_line, h.contentOf_line,
    e.charsFor_length_append]

/-- **The edit takes the place of the blanks and keeps the break.**  The text that comes out has the
client's own break in front of what is put in, whatever that is. -/
theorem apply_edit (e : Codec) (new : List Char) :
    (answerEdit e p br b t new).apply e (clientText p br b t) = p ++ br ++ new ++ t := by
  have hnew : (answerEdit e p br b t new).newText = br ++ new := by
    simp only [answerEdit, typedText, Typed.edit, clientText, List.take_left, List.drop_left]
  have htake : (clientText p br b t).take p.length = p := by
    rw [clientText, List.append_assoc, List.take_left]
  have hdrop : (clientText p br b t).drop (p ++ br ++ b).length = t := by
    rw [clientText, ← List.append_assoc, List.drop_left]
  unfold TextEdit.apply
  dsimp only
  rw [h.offset_start, h.offset_stop, htake, hdrop, hnew]
  simp only [List.append_assoc]

end Parts

/-! ## 2. What is found

The search goes by the document alone, so it may be asked about any place.  If it finds something,
the four parts can be read off what it found. -/

/-- A text that ends with a line feed ends with the whole of a break.  Whether that has two
characters is decided by the one before the line feed. -/
theorem exists_whole_break {a : List Char} (ha : a.getLast? = some '\n') :
    ∃ p br, a = p ++ br ∧ (br = ['\n'] ∨ br = ['\r', '\n']) ∧
      (p.getLast? = some '\r' → br ≠ ['\n']) := by
  obtain ⟨u, rfl⟩ := List.getLast?_eq_some_iff.1 ha
  by_cases hcr : u.getLast? = some '\r'
  · obtain ⟨p, rfl⟩ := List.getLast?_eq_some_iff.1 hcr
    exact ⟨p, ['\r', '\n'], List.append_assoc p _ _, .inr rfl, fun _ => by simp⟩
  · exact ⟨u, ['\n'], rfl, .inl rfl, fun hu => absurd hu hcr⟩

/-- **What is found is a whole line break with blanks behind it**, whatever place the client names
and however it counts.  The line of the place is the one that the break opens. -/
theorem Typed.exists_parts {e : Codec} {source : List Char} {pos : ClientPosition}
    {typed : Typed} (h : Typed.of? e source pos = some typed) :
    ∃ p br b t, Parts p br b t ∧ source = clientText p br b t ∧ typed = typedText p br b ∧
      pos.line = p.count '\n' + 1 := by
  unfold Typed.of? at h
  dsimp only at h
  split at h
  · cases h
  next hline =>
  split at h
  swap
  · cases h
  next hblanks =>
  have hlt : pos.line < ({ text := source } : Document).lineCount := by omega
  rw [Document.lineCount_eq_count] at hlt
  obtain ⟨a, r, hsource, ha, hcount⟩ := exists_startsLine (Nat.le_of_lt_succ hlt)
  dsimp only at hsource
  subst hsource
  have hne : a ≠ [] := by
    rintro rfl
    exact hline (.inl hcount.symm)
  obtain ⟨p, br, rfl, hbr, hwhole⟩ := exists_whole_break (ha.resolve_left hne)
  -- the cursor is on the line, some way behind its start
  generalize hk : min (columnOf e ((p ++ br) ++ r) pos) (untilBreak r).length = k
  have hkr : k ≤ r.length := by
    have := (Lexis.untilBreak_isPrefix r).length_le
    omega
  have hcursor : min (({ text := p ++ br ++ r } : Document).startOf pos.line +
      columnOf e (p ++ br ++ r) pos) (({ text := p ++ br ++ r } : Document).endOf pos.line) =
        (p ++ br).length + k := by
    rw [← hcount, Document.startOf_eq rfl ha, Document.endOf_eq rfl ha]
    omega
  rw [hcursor] at h hblanks
  rw [← hcount, Document.startOf_eq rfl ha, List.take_length_add_append, List.drop_left,
    List.all_eq_true] at hblanks
  have hparts : Parts p br (r.take k) (r.drop k) := ⟨hbr, hblanks, hwhole⟩
  have htext : p ++ br ++ r = clientText p br (r.take k) (r.drop k) := by
    rw [clientText, List.take_append_drop]
  have hnumber : pos.line = p.count '\n' + 1 := hcount.symm.trans hparts.count_newlines
  have hlength : (p ++ br ++ r.take k).length = (p ++ br).length + k := by
    rw [List.length_append, List.length_take, Nat.min_eq_left hkr]
  refine ⟨p, br, r.take k, r.drop k, hparts, htext, ?_, hnumber⟩
  rw [← Option.some.inj h, htext, hnumber, Nat.add_sub_cancel, hparts.endOf_above,
    hparts.startOf_line, typedText, hlength]

/-! ## 3. What a client puts in at a caret

The other way round: a client has put in a break and blanks, and asks about the place behind them.
The display and the buffer have to agree about the lines above, and for that the text has plain
breaks only and the line feed of the client joins no carriage return. -/

/-- A text around a caret, with the line break and the blanks that a client puts in there. -/
structure Inserted (p br b t : List Char) : Prop extends Parts p br b t where
  /-- The line feed of the break joins no carriage return of the text. -/
  joint : p.getLast? ≠ some '\r'
  plain : Text.PlainBreaks (p ++ t)

namespace Inserted

/-- At a caret of a text with plain line ends a client can put in a break and blanks. -/
theorem of_caret {source : List Char} {c : Nat} (hsource : Text.OnlyLineFeeds source)
    (hpos : 1 ≤ c) (hle : c ≤ source.length) (hcr : source[c - 1]? ≠ some '\r')
    (hbr : br = ['\n'] ∨ br = ['\r', '\n']) (hb : ∀ x ∈ b, isBlank x = true) :
    Inserted (source.take c) br b (source.drop c) := by
  have hlast : (source.take c).getLast? ≠ some '\r' := by
    rwa [Text.getLast?_take_of_le hpos hle]
  have hplain : Text.PlainBreaks (source.take c ++ source.drop c) := by
    rw [List.take_append_drop]
    exact hsource.plainBreaks
  exact ⟨⟨hbr, hb, fun hr => absurd hr hlast⟩, hlast, hplain⟩

variable (h : Inserted p br b t)

include h

/-- **What the client put in is found again**, in every encoding: the display counts the lines as
the buffer does, and the blanks are as wide as they are many. -/
theorem typed (e : Codec) :
    Typed.of? e (clientText p br b t) ⟨p.count '\n' + 1, b.length⟩ =
      some (typedText p br b) := by
  have hcount := h.lineCount
  have hcolumn : columnOf e (clientText p br b t) ⟨p.count '\n' + 1, b.length⟩ = b.length := by
    rw [← h.count_newlines]
    exact columnOf_blanks e h.startsLine (Text.PlainBreaks.append_break h.plain h.joint h.break_eq)
      h.blanks
  have hcursor : min ((p ++ br).length + b.length) ((p ++ br).length + (b ++ untilBreak t).length) =
      (p ++ br).length + b.length := by
    have := (List.prefix_append b (untilBreak t)).length_le
    omega
  have hblanks : (((clientText p br b t).take ((p ++ br).length + b.length)).drop
      (p ++ br).length).all isBlank = true := by
    rw [Parts.take_cursor, List.all_eq_true]
    exact h.blanks
  unfold Typed.of?
  dsimp only
  rw [if_neg (by omega), hcolumn, h.startOf_line, h.endOf_line, hcursor, if_pos hblanks,
    Nat.add_sub_cancel, h.endOf_above, ← List.length_append]
  rfl

end Inserted

/-! ## 4. The press

What is decided for the client is decided in the buffer before the press, with the caret where the
break was put in.  So the answer is the decision of an editor, said as an edit: a failure is handed
on, a decision that puts nothing in is no answer, and any other one is an edit. -/

/-- The editor with the buffer before the press.  It may be changed, and it is no mere viewer. -/
def pressEditor (language : Language) (tabSize : Int) (source : List Char) (caret : Nat) :
    Enter.Editor where
  document := { text := source }
  caret := caret
  session := { languages := [language.id], tabWidth := tabSize }

section Answer

variable {w : Workspace} {uri : String} {opened : OpenDocument} {language : Language}
  {tabSize : Int} {decision : Enter.Decision}

/-- Where the client put nothing in, it is told nothing. -/
theorem onEnter_of_not_typed [Text.Memory] {pos : ClientPosition} {tabSize : Int}
    (hopen : w.document? uri = some opened)
    (htyped : Typed.of? w.codec opened.text pos = none) :
    onEnter w uri pos tabSize = .ok none := by
  unfold onEnter
  simp only [hopen, htyped]
  cases languageFor opened.languageId uri <;> rfl

/-- The client is answered with what is decided in the buffer without what it put in.  This needs
nothing but that something was found. -/
theorem onEnter_of_typed [Text.Memory] {pos : ClientPosition}
    (hopen : w.document? uri = some opened)
    (hlang : languageFor opened.languageId uri = some language)
    (htext : opened.text = clientText p br b t)
    (htyped : Typed.of? w.codec opened.text pos = some (typedText p br b))
    (hline : pos.line = p.count '\n' + 1) (tabSize : Int) :
    onEnter w uri pos tabSize =
      (·.inserted.map fun text => answerEdit w.codec p br b t (text.drop 1)) <$>
        Enter.Decision.of language w.settings.formatters (w.settings.optionsFor language.id)
          (pressEditor language tabSize (p ++ t) p.length) := by
  rw [htext] at htyped
  unfold onEnter
  simp only [hopen, hlang, htext, htyped, hline, Parts.before]
  rfl

/-- The client is answered with what is decided in the buffer before the press, if what it put in
can be found again. -/
theorem onEnter_eq [Text.Memory] (hopen : w.document? uri = some opened)
    (hlang : languageFor opened.languageId uri = some language) (h : Inserted p br b t)
    (htext : opened.text = clientText p br b t) (tabSize : Int) :
    onEnter w uri ⟨p.count '\n' + 1, b.length⟩ tabSize =
      (·.inserted.map fun text => answerEdit w.codec p br b t (text.drop 1)) <$>
        Enter.Decision.of language w.settings.formatters (w.settings.optionsFor language.id)
          (pressEditor language tabSize (p ++ t) p.length) :=
  onEnter_of_typed hopen hlang htext (htext ▸ h.typed w.codec) rfl tabSize

variable (hopen : w.document? uri = some opened)
  (hlang : languageFor opened.languageId uri = some language) (h : Inserted p br b t)
  (htext : opened.text = clientText p br b t)

include hopen hlang h htext

theorem onEnter_eq_error [Text.Memory] {failure : Indent.Failure}
    (hd : Enter.Decision.of language w.settings.formatters (w.settings.optionsFor language.id)
      (pressEditor language tabSize (p ++ t) p.length) = .error failure) :
    onEnter w uri ⟨p.count '\n' + 1, b.length⟩ tabSize = .error failure := by
  rw [onEnter_eq hopen hlang h htext, hd]
  rfl

theorem onEnter_eq_none [Text.Memory]
    (hd : Enter.Decision.of language w.settings.formatters (w.settings.optionsFor language.id)
      (pressEditor language tabSize (p ++ t) p.length) = .ok decision)
    (hi : decision.inserted = none) :
    onEnter w uri ⟨p.count '\n' + 1, b.length⟩ tabSize = .ok none := by
  have hnone : decision.inserted.map
      (fun text => answerEdit w.codec p br b t (text.drop 1)) = none := by
    rw [hi]
    rfl
  rw [onEnter_eq hopen hlang h htext, hd]
  exact congrArg Except.ok hnone

/-- The client gets what is put in, behind its own break, in the place of the line feed that the
decision starts with. -/
theorem exists_onEnter_eq_some [Text.Memory] {text : List Char}
    (hd : Enter.Decision.of language w.settings.formatters (w.settings.optionsFor language.id)
      (pressEditor language tabSize (p ++ t) p.length) = .ok decision)
    (hi : decision.inserted = some text) :
    ∃ edit, onEnter w uri ⟨p.count '\n' + 1, b.length⟩ tabSize = .ok (some edit) ∧
      edit.apply w.codec opened.text = p ++ br ++ text.drop 1 ++ t := by
  have hsome : decision.inserted.map
      (fun text => answerEdit w.codec p br b t (text.drop 1)) =
        some (answerEdit w.codec p br b t (text.drop 1)) := by
    rw [hi]
    rfl
  refine ⟨answerEdit w.codec p br b t (text.drop 1), ?_, ?_⟩
  · rw [onEnter_eq hopen hlang h htext, hd]
    exact congrArg Except.ok hsome
  · rw [htext]
    exact h.apply_edit w.codec (text.drop 1)

end Answer

end SmartEnter.Client
