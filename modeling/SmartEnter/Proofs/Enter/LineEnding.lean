/-
# Enter and the style of line breaks

A buffer may end its lines with line feeds or with carriage returns and line feeds.  Enter does the
same in both (`press_withReturns`): the same text is put in, or none, and the caret goes to the same
line and column.  Only the offsets of the two buffers differ.

The argument is that the sites of the two carets are alike (`Site.alike_withReturns`).  Lines start
where they did, as far as places move, and hold the same; and so do the marks of the outline.

That the marks move like the places is where the language comes in.  Of the lexemes only block
comments go over a break, and they do so in both buffers.  A string that ends in a backslash takes a
carriage return with it, but it starts where it did, and where a lexeme ends is not seen.  Markers
and closers must not have a line feed in them, or a carriage return in the middle of one would hide
it; those of the built-in languages have none.

What is put in is a line feed in both buffers, also in the one whose lines end otherwise.  So the
two buffers differ after the press by the returns that they differed by before, and a press of Enter
leaves a buffer of the second kind with a break of the first.
-/
import SmartEnter.Proofs.Document.Returns
import SmartEnter.Proofs.Enter.Alike
import SmartEnter.Proofs.Language.Builtin
import SmartEnter.Proofs.Token.Returns

namespace SmartEnter

open Text (addReturns returned)

/-- Comments of a built-in language open and close within a line. -/
theorem Language.withinLines_of_mem_builtin {language : Language} (h : language ∈ builtin) :
    language.lexis.WithinLines := by
  refine ⟨(lawful_of_mem_builtin h).short.toRegular, ?_⟩
  intro m q hm
  rw [(blockComment_of_mem_builtin h hm).2]
  decide

namespace Enter

variable {language : Language} {formatters : Formatters} {options : Indent.Options} {d : Document}
  {n : Nat}

/-! ## 1. The sites of the two carets

The three parts of likeness, each from the fact that lines, contents and marks move with the
carriage returns that are put in before them. -/

/-- **The sites of the two carets are alike.**  Line breaks must not count as tokens, or a break
would be what is found before the caret. -/
theorem Site.alike_withReturns (hL : language.lexis.WithinLines) (hnl : .newline ∈ language.blanks)
    (hcr : '\r' ∉ d.text) (hn : n ≤ d.text.length) :
    (Site.of language d.withReturns (returned d.text n : Nat)).Alike (Site.of language d n) where
  indent := by
    rw [Site.of, Site.of]
    dsimp only
    rw [Document.lineNumber_withReturns hn, Document.indentOf, Document.indentOf,
      Document.contentOf_withReturns hcr (d.lineNumber_lt_lineCount hn)]
  behind := by
    have hdrop : '\r' ∉ d.text.drop n := fun h => hcr (List.mem_of_mem_drop h)
    rw [Site.of, Site.of]
    dsimp only
    rw [Document.slice_endOf (d.returned_le_length n), Document.slice_endOf hn,
      (d.take_withReturns n).2, Text.untilBreak_addReturns hdrop]
  seen := by
    have hline := d.lineNumber_lt_lineCount hn
    have houtline := Lexis.outline_addReturns hL hnl [] hcr
    rw [Site.seen_of (d.returned_le_length n), Site.seen_of hn, Document.lineNumber_withReturns hn,
      Document.startOf_withReturns hline, Document.startOf_withReturns (by omega),
      Document.text_withReturns, show (0 : Nat) = (addReturns []).length from rfl, houtline]
    refine seenAmong_map_move ?_
    intro m hm k hk
    have hplace := Lexeme.place_lt_of_mem_outline
      (fun l hl => Lexis.text_ne_nil_of_mem_lexemes hl) hm
    rw [Lexis.spell_lexemes, List.length_nil, Nat.zero_add] at hplace
    have hkle : k ≤ d.text.length := by
      simp only [List.mem_cons, List.not_mem_nil, or_false] at hk
      rcases hk with rfl | rfl | rfl
      · exact d.startOf_le _
      · exact d.startOf_le _
      · exact hn
    exact Text.returned_lt_iff (Nat.le_of_lt hplace) hkle

/-! ## 2. The results

Results are compared by what an editor can see of them: the text that is put in, where it is put in,
and the caret. -/

/-- Behind a line feed and the text of a line, the caret stands on the next line, behind the
text. -/
theorem caretBehind_insert {b : List Char} (hn : n ≤ d.text.length) (hb : '\n' ∉ b)
    (tabWidth : Int) :
    Result.caretBehind (d.insert n ('\n' :: b)) ⟨n, '\n' :: b⟩ tabWidth =
      ⟨(d.text.take n).count '\n' + 1, Indent.displayWidth b tabWidth⟩ := by
  have ht : (d.insert n ('\n' :: b)).text = d.text.take n ++ ['\n'] ++ b ++ d.text.drop n := by
    have hinsert := Text.insertAt_natCast hn ('\n' :: b)
    rw [List.append_assoc (d.text.take n), List.singleton_append, ← hinsert]
    rfl
  have hstop : (n : Int) + ('\n' :: b).length = ((d.text.take n ++ ['\n'] ++ b).length : Nat) := by
    simp only [List.length_append, List.length_take, List.length_cons, List.length_nil]
    omega
  have hline := startsLine_append_newline (d.text.take n)
  rw [Result.caretBehind]
  dsimp only
  rw [hstop, Document.slice_startOf ht hline hb, Document.lineNumber_eq ht hb, List.count_append,
    List.count_singleton_self, Int.natCast_add]
  rfl

/-- Two results, each of its editor, say the same: the same text is put in, at the caret of each
editor, or none, and the caret goes to the same line and column. -/
structure SameResult (e e' : Editor) (r r' : Result) : Prop where
  outcome : r.outcome = r'.outcome
  text : r.insertion.map (·.text) = r'.insertion.map (·.text)
  offset : ∀ i, r.insertion = some i → i.offset = e.caret
  offset' : ∀ i, r'.insertion = some i → i.offset = e'.caret
  caret : r.caret = r'.caret
  caretAfter : r.caretAfter (r.apply e.document) e.session.tabWidth =
    r'.caretAfter (r'.apply e'.document) e'.session.tabWidth

/-- Results say the same if the same text is put in on lines of the same number. -/
theorem sameResult_resultOf {e e' : Editor} {n' : Nat} {caret : Option Caret}
    {text : Option (List Char)} (he : e.caret = n) (he' : e'.caret = n')
    (hn : n ≤ e.document.text.length) (hn' : n' ≤ e'.document.text.length)
    (hcount : (e.document.text.take n).count '\n' = (e'.document.text.take n').count '\n')
    (htab : e.session.tabWidth = e'.session.tabWidth)
    (htext : ∀ s, text = some s → ∃ b, s = '\n' :: b ∧ '\n' ∉ b) :
    SameResult e e' (e.resultOf caret text) (e'.resultOf caret text) := by
  cases text with
  | none => exact ⟨rfl, rfl, nofun, nofun, rfl, rfl⟩
  | some s =>
    obtain ⟨b, rfl, hb⟩ := htext s rfl
    refine ⟨rfl, rfl, ?_, ?_, rfl, ?_⟩
    · rintro _ ⟨⟩
      rfl
    · rintro _ ⟨⟩
      rfl
    · cases caret with
      | some caret => rfl
      | none =>
        have hbehind := caretBehind_insert hn hb e.session.tabWidth
        have hbehind' := caretBehind_insert hn' hb e'.session.tabWidth
        rw [← he] at hbehind
        rw [← he'] at hbehind'
        refine congrArg Except.ok (hbehind.trans ?_)
        rw [hcount, htab]
        exact hbehind'.symm

/-- In two editors that accept the key, at sites that are alike and on lines of the same number, a
press has the same result, or none for the same reason. -/
theorem sameResult_of_alike [Text.Memory] {e e' : Editor} {n' : Nat}
    (hlead : '\n' ∉ language.commentLead)
    (he : e.Accepts language) (he' : e'.Accepts language) (hcaret : e.caret = n)
    (hcaret' : e'.caret = n') (hn : n ≤ e.document.text.length)
    (hn' : n' ≤ e'.document.text.length)
    (halike : (Site.of language e'.document e'.caret).Alike
      (Site.of language e.document e.caret))
    (hline : e'.document.lineNumber e'.caret = e.document.lineNumber e.caret)
    (hshown : Indent.ofDocument e'.document = Indent.ofDocument e.document)
    (htab : e'.session.tabWidth = e.session.tabWidth) :
    (∃ r r', press language formatters options (some e) = .ok r ∧
        press language formatters options (some e') = .ok r' ∧ SameResult e e' r r') ∨
      ∃ f, press language formatters options (some e) = .error f ∧
        press language formatters options (some e') = .error f ∧
        ¬(0 < options.size ∧ 0 < options.tabSize ∧ options.size ≤ Text.Memory.limit) := by
  obtain ⟨row, hrow⟩ := Row.exists_applies language formatters
    (Site.of language e.document e.caret)
  have hpress : press language formatters options (some e) = _ :=
    (hrow.press_eq he).trans (row.result_eq language options e _ _)
  have hpress' : press language formatters options (some e') = _ :=
    ((hrow.congr halike.symm).press_eq he').trans (row.result_eq language options e' _ _)
  -- both put in the same text and choose the same caret
  have hinserted : row.inserted language options e'.document
      (Site.of language e'.document e'.caret) =
        row.inserted language options e.document (Site.of language e.document e.caret) := by
    refine Row.inserted_congr halike fun _ => ?_
    rw [halike.indent]
    exact Indent.deepen_congr fun _ => hshown
  rw [hinserted, hline, htab, Row.caret_congr halike] at hpress'
  cases hx : row.inserted language options e.document (Site.of language e.document e.caret) with
  | ok text =>
    rw [hx] at hpress hpress'
    refine .inl ⟨_, _, hpress, hpress', ?_⟩
    refine sameResult_resultOf hcaret hcaret' hn hn' ?_ htab.symm ?_
    · rw [hcaret, hcaret', Document.lineNumber_eq_count hn', Document.lineNumber_eq_count hn]
        at hline
      exact hline.symm
    · rintro s rfl
      exact Row.exists_inserted hlead (isBlank_indent language e.document e.caret) hx
  | error f =>
    rw [hx] at hpress hpress'
    refine .inr ⟨f, hpress, hpress', ?_⟩
    rintro ⟨hsize, htab, hwidth⟩
    obtain ⟨text, htext⟩ := Row.inserted_eq_ok hsize htab hwidth e.document
    rw [hx] at htext
    cases htext

/-- **The style of line breaks does not matter.**  In a text without carriage returns, and in the
same text with a carriage return in front of every line feed, a press has the same result at the
same place; or it fails in both for the same reason, but not with positive sizes of which a level
is not too wide for a text. -/
theorem press_withReturns [Text.Memory] (hlang : language ∈ Language.builtin) (hcr : '\r' ∉ d.text)
    (hpos : 1 ≤ n) (hn : n ≤ d.text.length) (formatters : Formatters) (options : Indent.Options)
    (session : Session) :
    let e : Editor := ⟨d, n, session⟩
    let e' : Editor := ⟨d.withReturns, (n + (d.text.take n).count '\n' : Nat), session⟩
    (∃ r r', press language formatters options (some e) = .ok r ∧
        press language formatters options (some e') = .ok r' ∧ SameResult e e' r r') ∨
      ∃ f, press language formatters options (some e) = .error f ∧
        press language formatters options (some e') = .error f ∧
        ¬(0 < options.size ∧ 0 < options.tabSize ∧ options.size ≤ Text.Memory.limit) := by
  intro e e'
  have hlawful := Language.lawful_of_mem_builtin hlang
  have hcaret' : e'.caret = (returned d.text n : Nat) := by rw [Text.returned_eq hn]
  have hpos' : 0 < e'.caret := by
    rw [hcaret', Text.returned_eq hn]
    omega
  rcases e.accepts_or_refuses language with he | he
  · have halike := Site.alike_withReturns (Language.withinLines_of_mem_builtin hlang)
      (by rw [hlawful.blanks_eq]; simp) hcr hn
    have hline := Document.lineNumber_withReturns hn
    rw [← hcaret'] at halike hline
    exact sameResult_of_alike hlawful.lead_inLine.1 he
      ⟨he.language_mem, he.not_viewer, he.writable, hpos'⟩ rfl hcaret' hn (d.returned_le_length n)
      halike hline (Document.indent_withReturns hcr) rfl
  · have he' : e'.Refuses language := by
      rcases he with h | h | h | h
      · exact .inl h
      · exact .inr (.inl h)
      · exact .inr (.inr (.inl h))
      · have : (0 : Int) < e.caret := by
          show (0 : Int) < n
          omega
        omega
    exact .inl ⟨_, _, he.press_eq, he'.press_eq, rfl, rfl, nofun, nofun, rfl, rfl⟩

/-- Below a brace, whose line ends in either style, one level is put in; the offset differs by the
carriage return. -/
theorem press_withReturns_below_brace :
    let _ := Text.Memory.kilobyte
    Language.c ∈ Language.builtin ∧ '\r' ∉ ['{', '\n'] ∧
      (⟨['{', '\n'], true⟩ : Document).withReturns = ⟨['{', '\r', '\n'], true⟩ ∧
      ∃ r r', press .c [] {} (some ⟨⟨['{', '\n'], true⟩, 2, ⟨["c"], false, 4⟩⟩) = .ok r ∧
        press .c [] {} (some ⟨⟨['{', '\r', '\n'], true⟩, 3, ⟨["c"], false, 4⟩⟩) = .ok r' ∧
        SameResult ⟨⟨['{', '\n'], true⟩, 2, ⟨["c"], false, 4⟩⟩
          ⟨⟨['{', '\r', '\n'], true⟩, 3, ⟨["c"], false, 4⟩⟩ r r' := by
  intro _
  have hlang : Language.c ∈ Language.builtin := List.mem_cons_self
  have hcr : '\r' ∉ ['{', '\n'] := by decide
  refine ⟨hlang, hcr, rfl, ?_⟩
  rcases press_withReturns (d := ⟨['{', '\n'], true⟩) (n := 2) hlang hcr (by decide) (by decide) []
    {} ⟨["c"], false, 4⟩ with h | ⟨f, -, -, hsizes⟩
  · exact h
  · exact absurd ⟨by decide, by decide, by decide⟩ hsizes

end Enter

end SmartEnter
