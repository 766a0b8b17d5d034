/-
# The cursor of a client

A client that asks about Enter names a place, and the edit that answers it stops at a place of the
same line.  What stands between the start of the line and the place is meant to be cut out, and it
is if the two places are the same.

The column of the client is looked up on the line of the *display* with that number, and the line
itself in the *buffer*.  So the edit may stop before the place, but never behind it, and it stops
there exactly if the display's line can be counted along up to the column (`CountsAlong`,
`columnOf_eq_iff`).  Where line feeds are the only terminators, the two lines are the same one
(`columnOf_of_plainBreaks`), and the edit stops at the place (`onEnter_stop`).

Three things can go wrong otherwise.  The display may have no line of that number, or a shorter one,
and then the column is drawn back.  Or its line has a character that is several units wide before
the column, and then there are fewer characters before the column than units.  The blanks on the
buffer's line are one unit each, so the two counts would have to agree, and they do not.

The edit itself stays on the right line whatever happens: its numbers are those of the buffer.  What
is lost is that all of the client's blanks are taken away.
-/
import SmartEnter.Proofs.Client.BeforeEnter
import SmartEnter.Proofs.Style.Accepted

namespace SmartEnter

open Text (isBlank splitLines joinBreaks Line Codec PlainBreaks)

/-! ## 1. Characters before a column

A column is counted in units and an offset in characters.  The two are the same number exactly if
every character on the way is one unit wide, and the last one need not be, because a column inside a
character stands for the place behind it. -/

namespace Text.Codec

variable (e : Codec) {s t : List Char} {n : Nat}

theorem charsFor_append_of_le (h : n ≤ e.length s) (t : List Char) :
    e.charsFor n (s ++ t) = e.charsFor n s := by
  induction s generalizing n with
  | nil =>
    obtain rfl := Nat.le_zero.1 h
    exact e.charsFor_zero t
  | cons c s ih =>
    cases n with
    | zero => rfl
    | succ n =>
      rw [length_cons] at h
      rw [List.cons_append, charsFor_succ_cons, charsFor_succ_cons, ih (by omega)]

/-- Before a column there are as many characters as units if they are blanks. -/
theorem charsFor_of_blanks (h : n ≤ e.length s)
    (hb : ∀ c ∈ s.take (e.charsFor n s), isBlank c = true) : e.charsFor n s = n := by
  induction s generalizing n with
  | nil =>
    obtain rfl := Nat.le_zero.1 h
    rfl
  | cons c s ih =>
    cases n with
    | zero => rfl
    | succ n =>
      rw [charsFor_succ_cons, List.take_succ_cons] at hb
      have hc : e.units c = 1 := e.units_blank c (hb c List.mem_cons_self)
      rw [length_cons, hc] at h
      rw [hc, Nat.add_sub_cancel] at hb
      rw [charsFor_succ_cons, hc, Nat.add_sub_cancel,
        ih (by omega) fun d hd => hb d (List.mem_cons_of_mem _ hd)]

/-- There are as many characters as units before a column if and only if the text has the column and
all characters but the last one are one unit wide.  The induction is on the text, with the column
growing smaller on the way. -/
theorem charsFor_eq_self_iff : e.charsFor n s = n ↔
    n = 0 ∨ n ≤ e.length s ∧ ∀ c ∈ s.take (n - 1), e.units c = 1 := by
  induction s generalizing n with
  | nil =>
    cases n with
    | zero => simp
    | succ n => simp
  | cons c s ih =>
    cases n with
    | zero => simp
    | succ n =>
      have hc := e.units_pos c
      rw [charsFor_succ_cons, Nat.add_sub_cancel, length_cons]
      cases n with
      | zero =>
        have hzero : 0 + 1 - e.units c = 0 := by omega
        rw [hzero]
        refine iff_of_true ?_ (.inr ⟨by omega, fun _ hd => absurd hd List.not_mem_nil⟩)
        cases s <;> rfl
      | succ n =>
        rw [List.take_succ_cons]
        by_cases hone : e.units c = 1
        · rw [hone, Nat.add_sub_cancel, Nat.succ_inj, ih, List.forall_mem_cons, Nat.add_sub_cancel]
          constructor
          · rintro (hn | ⟨hn, hunits⟩)
            · omega
            · exact .inr ⟨by omega, hone, hunits⟩
          · rintro (hn | ⟨hn, -, hunits⟩)
            · omega
            · exact .inr ⟨by omega, hunits⟩
        · have hle := e.charsFor_le (n + 1 + 1 - e.units c) s
          refine iff_of_false (by omega) ?_
          rintro (hn | ⟨-, hunits⟩)
          · omega
          · exact hone (hunits c List.mem_cons_self)

/-- The column of a client is at most as many characters to the right as it says, with any codec.
If the line has the column, this is counting; if not, it is the law about columns that are drawn
back. -/
theorem position_le (line : List Char) (column : Nat) : e.position line column ≤ column := by
  by_cases h : column ≤ e.length (joinBreaks line)
  · rw [e.position_of_le line column h]
    exact e.charsFor_le column (joinBreaks line)
  · exact Nat.le_of_lt (e.position_lt line column (Nat.not_le.1 h))

/-- A column that the content of a display's line has is found in the content: the terminator of the
line plays no part. -/
theorem position_full {l : Line} (hcr : '\r' ∉ l.content) (h : n ≤ e.length l.content) :
    e.position l.full n = e.charsFor n l.content := by
  have hjoin : joinBreaks l.full = l.content ++ joinBreaks l.terminator := joinBreaks_append hcr _
  have hwidth : n ≤ e.length (joinBreaks l.full) := by
    rw [hjoin, length_append]
    omega
  calc e.position l.full n
      = e.charsFor n (joinBreaks l.full) := e.position_of_le _ _ hwidth
    _ = e.charsFor n l.content := by rw [hjoin, e.charsFor_append_of_le h]

end Text.Codec

/-! ## 2. The column

The column of a client is looked up on a line of the display, and the statements are about that line
alone until line feeds are the only terminators. -/

namespace Client

variable {e : Codec} {source : List Char} {pos : ClientPosition}

/-- The line of the display with the number of the place can be counted along up to the column, one
character for each unit.  At the start of a line there is nothing to be counted. -/
def CountsAlong (e : Codec) (source : List Char) (pos : ClientPosition) : Prop :=
  pos.character = 0 ∨ ∃ l, (splitLines source)[pos.line]? = some l ∧
    pos.character ≤ e.length (joinBreaks l.full) ∧
    ∀ c ∈ (joinBreaks l.full).take (pos.character - 1), e.units c = 1

theorem columnOf_le (e : Codec) (source : List Char) (pos : ClientPosition) :
    columnOf e source pos ≤ pos.character := by
  unfold columnOf
  split
  · exact e.position_le _ _
  · exact Nat.zero_le _

/-- **The column is as many characters to the right as it says** exactly if the display's line can
be counted along up to it.  A column that is drawn back is never as many to the right as it says. -/
theorem columnOf_eq_iff : columnOf e source pos = pos.character ↔ CountsAlong e source pos := by
  unfold columnOf CountsAlong
  cases (splitLines source)[pos.line]? with
  | none => simp [eq_comm]
  | some l =>
    by_cases hwidth : pos.character ≤ e.length (joinBreaks l.full)
    · have hposition : e.position l.full pos.character = e.charsFor pos.character
        (joinBreaks l.full) := e.position_of_le _ _ hwidth
      dsimp only
      rw [hposition, e.charsFor_eq_self_iff]
      simp
    · have hlt := e.position_lt l.full pos.character (Nat.not_le.1 hwidth)
      refine iff_of_false (Nat.ne_of_lt hlt) ?_
      rintro (hzero | ⟨l', hl', hwidth', -⟩)
      · omega
      · cases hl'
        exact hwidth hwidth'

theorem columnOf_eq_charsFor (h : pos.character ≤ e.length (Text.displayLine source pos.line)) :
    columnOf e source pos = e.charsFor pos.character (Text.displayLine source pos.line) := by
  unfold columnOf
  unfold Text.displayLine at h ⊢
  cases hl : (splitLines source)[pos.line]? with
  | none =>
    rw [hl] at h
    rw [Nat.le_zero.1 h]
    rfl
  | some l =>
    rw [hl] at h
    have hcr : '\r' ∉ l.content := fun hmem => absurd
      (Text.not_isTerminator_of_mem_splitLines (List.mem_of_getElem? hl) '\r' hmem) (by decide)
    exact e.position_full hcr h

/-- **Where line feeds are the only terminators**, the column is found on the line of the buffer,
for the display has the same lines. -/
theorem columnOf_of_plainBreaks (hplain : PlainBreaks source)
    (hline : pos.line < ({ text := source } : Document).lineCount)
    (hcharacter : pos.character ≤ e.length (({ text := source } : Document).contentOf pos.line)) :
    columnOf e source pos =
      e.charsFor pos.character (({ text := source } : Document).contentOf pos.line) := by
  rw [Document.contentOf_eq_lineContent hline, ← Text.displayLine_eq_lineContent hplain]
    at hcharacter ⊢
  exact columnOf_eq_charsFor hcharacter

/-! ## 3. The edit -/

/-- What is cut out behind the client's break is what the line has before the column, all of it
blanks. -/
theorem Typed.exists_blanks {typed : Typed} (h : Typed.of? e source pos = some typed) :
    let content := ({ text := source } : Document).contentOf pos.line
    let cut := content.take (columnOf e source pos)
    pos.line < ({ text := source } : Document).lineCount ∧
      (source.take typed.cursor).drop typed.lineStart = cut ∧ ∀ c ∈ cut, isBlank c = true := by
  intro content cut
  unfold Typed.of? at h
  dsimp only at h
  split at h
  · cases h
  next hline =>
  split at h
  swap
  · cases h
  next hblanks =>
  cases h
  have hlt : pos.line < ({ text := source } : Document).lineCount := by omega
  have hcut : (source.take (min (({ text := source } : Document).startOf pos.line +
      columnOf e source pos) (({ text := source } : Document).endOf pos.line))).drop
        (({ text := source } : Document).startOf pos.line) = cut := by
    rw [← List.take_take, List.drop_take, Nat.add_sub_cancel_left]
    rfl
  rw [hcut, List.all_eq_true] at hblanks
  exact ⟨hlt, hcut, hblanks⟩

/-- The edit stops behind what is cut out.  Blanks are one unit wide, so the number of units is that
of the characters. -/
theorem Typed.stop_edit {typed : Typed} (h : Typed.of? e source pos = some typed)
    (new : List Char) : (typed.edit e source pos.line new).stop =
      ⟨pos.line, min (columnOf e source pos)
        (({ text := source } : Document).contentOf pos.line).length⟩ := by
  obtain ⟨-, hcut, hblanks⟩ := Typed.exists_blanks h
  rw [Typed.edit, hcut, e.length_blanks hblanks, List.length_take]

theorem Typed.stop_eq_iff {typed : Typed} (h : Typed.of? e source pos = some typed)
    (hcharacter : pos.character ≤ e.length (({ text := source } : Document).contentOf pos.line))
    (new : List Char) :
    (typed.edit e source pos.line new).stop = pos ↔ columnOf e source pos = pos.character := by
  obtain ⟨-, -, hblanks⟩ := Typed.exists_blanks h
  have hle := columnOf_le e source pos
  rw [Typed.stop_edit h]
  generalize ({ text := source } : Document).contentOf pos.line = content at hcharacter hblanks ⊢
  constructor
  · intro heq
    have hcolumn : min (columnOf e source pos) content.length = pos.character :=
      congrArg ClientPosition.character heq
    omega
  · intro hcolumn
    -- A line of blanks is as long as it is wide, so the column does not lie behind its end.
    have hfit : pos.character ≤ content.length := by
      by_cases hfit : columnOf e source pos ≤ content.length
      · omega
      · rw [List.take_of_length_le (by omega)] at hblanks
        rwa [← e.length_blanks hblanks]
    rw [hcolumn, Nat.min_eq_left hfit]

/-- An answer to Enter is an edit of what the client put in.  Only the text that is put in depends
on the decision. -/
theorem exists_typed_of_onEnter [Text.Memory] {w : Workspace} {uri : String} {opened : OpenDocument}
    {tabSize : Int} {edit : TextEdit} (hopen : w.document? uri = some opened)
    (h : onEnter w uri pos tabSize = .ok (some edit)) :
    ∃ typed new, Typed.of? w.codec opened.text pos = some typed ∧
      edit = typed.edit w.codec opened.text pos.line new := by
  cases htyped : Typed.of? w.codec opened.text pos with
  | none =>
    rw [onEnter_of_not_typed hopen htyped] at h
    cases h
  | some typed =>
    unfold onEnter at h
    cases hlang : languageFor opened.languageId uri with
    | none =>
      simp only [hopen, hlang] at h
      cases h
    | some language =>
      simp only [hopen, hlang, htyped] at h
      obtain ⟨decision, -, h⟩ := exists_of_bind_eq_ok h
      obtain ⟨text, -, rfl⟩ := Option.map_eq_some_iff.1 (Except.ok.inj h)
      exact ⟨typed, _, rfl, rfl⟩

/-- **The edit stops at the cursor of the client or before it**, on its line.  It stops at the
cursor exactly if the display's line of that number can be counted along up to it, and it always
does so where line feeds are the only line terminators. -/
theorem onEnter_stop [Text.Memory] {w : Workspace} {uri : String} {opened : OpenDocument}
    {tabSize : Int} {edit : TextEdit} (hopen : w.document? uri = some opened)
    (hcharacter : pos.character ≤
      w.codec.length (({ text := opened.text } : Document).contentOf pos.line))
    (h : onEnter w uri pos tabSize = .ok (some edit)) :
    edit.stop.line = pos.line ∧ edit.stop.character ≤ pos.character ∧
      (edit.stop = pos ↔ CountsAlong w.codec opened.text pos) ∧
      (PlainBreaks opened.text → edit.stop = pos) := by
  obtain ⟨typed, new, htyped, rfl⟩ := exists_typed_of_onEnter hopen h
  have hstop := Typed.stop_edit htyped new
  have hiff := Typed.stop_eq_iff htyped hcharacter new
  refine ⟨?_, ?_, hiff.trans columnOf_eq_iff, ?_⟩
  · rw [hstop]
  · rw [hstop]
    exact Nat.le_trans (Nat.min_le_left _ _) (columnOf_le w.codec opened.text pos)
  · intro hplain
    obtain ⟨hline, -, hblanks⟩ := Typed.exists_blanks htyped
    have hcolumn := columnOf_of_plainBreaks hplain hline hcharacter
    rw [hcolumn] at hblanks
    rw [hiff, hcolumn]
    exact w.codec.charsFor_of_blanks hcharacter hblanks

/-- Behind a brace the edit takes in the blanks that the client put in. -/
theorem onEnter_stop_behind_brace :
    let _ := Text.Memory.kilobyte
    let text := ['{', '\n', ' ', ' ']
    let w : Workspace := { documents := [⟨"a.c", "c", text⟩] }
    let edit : TextEdit := ⟨⟨0, 1⟩, ⟨1, 2⟩, ['\n', ' ', ' ', ' ', ' ']⟩
    w.document? "a.c" = some ⟨"a.c", "c", text⟩ ∧
      2 ≤ w.codec.length (({ text } : Document).contentOf 1) ∧ PlainBreaks text ∧
      onEnter w "a.c" ⟨1, 2⟩ 4 = .ok (some edit) ∧ edit.stop = ⟨1, 2⟩ := by
  intro _ text w edit
  have hopen : w.document? "a.c" = some ⟨"a.c", "c", text⟩ := rfl
  have hcharacter : 2 ≤ w.codec.length (({ text } : Document).contentOf 1) := by decide
  have hplain : PlainBreaks text := Text.OnlyLineFeeds.plainBreaks (by
    unfold Text.OnlyLineFeeds
    decide)
  have htyped : Typed.of? w.codec text ⟨1, 2⟩ = some (typedText ['{'] ['\n'] [' ', ' ']) := by
    decide
  have hlexemes : Language.c.lexis.lexemes ['{'] = [⟨.lbrace, ['{']⟩] := by cbv
  have hdecision : Enter.Decision.of .c [] {} (pressEditor .c 4 ['{'] 1) =
      .ok (.deepen .lbrace [' ', ' ', ' ', ' ']) := by
    rw [Enter.Decision.of, Enter.Site.of, Language.tokens, Lexis.tokens, pressEditor, hlexemes]
    decide
  have hedit : onEnter w "a.c" ⟨1, 2⟩ 4 = .ok (some edit) :=
    (onEnter_of_typed hopen rfl rfl htyped rfl 4).trans (congrArg (_ <$> ·) hdecision)
  obtain ⟨-, -, -, hstop⟩ := onEnter_stop hopen (by exact hcharacter) hedit
  exact ⟨hopen, hcharacter, hplain, hedit, hstop hplain⟩

/-- Below a form feed the display is one line ahead of the buffer, and the edit stops three blanks
before the cursor. -/
theorem onEnter_stops_before_cursor :
    let _ := Text.Memory.kilobyte
    let text := ['\x0C', '\n', '{', '\n', ' ', ' ', ' ', ' ']
    let w : Workspace := { documents := [⟨"a.c", "c", text⟩] }
    let edit : TextEdit := ⟨⟨1, 1⟩, ⟨2, 1⟩, ['\n', ' ', ' ', ' ', ' ']⟩
    '\r' ∉ text ∧ w.document? "a.c" = some ⟨"a.c", "c", text⟩ ∧
      4 ≤ w.codec.length (({ text } : Document).contentOf 2) ∧
      onEnter w "a.c" ⟨2, 4⟩ 4 = .ok (some edit) ∧ edit.stop ≠ ⟨2, 4⟩ := by
  intro _ text w edit
  have hopen : w.document? "a.c" = some ⟨"a.c", "c", text⟩ := rfl
  have htyped : Typed.of? w.codec text ⟨2, 4⟩ =
      some (typedText ['\x0C', '\n', '{'] ['\n'] [' ']) := by decide
  have hlexemes : Language.c.lexis.lexemes ['\x0C', '\n', '{', ' ', ' ', ' '] =
      [⟨.text, ['\x0C']⟩, ⟨.newline, ['\n']⟩, ⟨.lbrace, ['{']⟩, ⟨.ws, [' ', ' ', ' ']⟩] := by cbv
  have hdecision : Enter.Decision.of .c [] {}
      (pressEditor .c 4 ['\x0C', '\n', '{', ' ', ' ', ' '] 3) =
        .ok (.deepen .lbrace [' ', ' ', ' ', ' ']) := by
    rw [Enter.Decision.of, Enter.Site.of, Language.tokens, Lexis.tokens, pressEditor, hlexemes]
    decide
  have hedit : onEnter w "a.c" ⟨2, 4⟩ 4 = .ok (some edit) :=
    (onEnter_of_typed hopen rfl rfl htyped rfl 4).trans (congrArg (_ <$> ·) hdecision)
  exact ⟨by decide, hopen, by decide, hedit, by decide⟩

end Client

end SmartEnter
