/-
# Enter looks at two lines

A press looks at the line of the caret and at the line above.  Two documents that share these lines
get the same edit, whatever stands before and behind them (`press_eq_or_leak`), if either the same
text stands before, or no lexeme of what stands before goes on into the lines.

There is one leak.  The style of a level that is put in where no indent is, is inferred from the
first indent of the document.  Then the texts that are put in may differ, and if a level can be
written in one style only, one press has a result and the other has none.

The two lines are given by what is on them, with the caret between two parts of the second one
(`TwoLines`); what stands before and behind are two more texts.  The site of the caret is then
calculated, and it turns out that neither of the two texts is in it, but for the token before the
caret.  What stands behind the lines cannot reach that token, because a lexeme is read from its
start on and the second line ends behind the caret.  What stands before can, by a comment or a
string that goes on into the lines, and that is the one thing that has to be excluded.
-/
import SmartEnter.Proofs.Enter.Alike
import SmartEnter.Proofs.Language.Builtin
import SmartEnter.Proofs.Token.Locality

namespace SmartEnter

open Lexeme (outline)
open Lexis (untilBreak untilBreak_newline)
open Text (isBlank)

namespace Enter

/-- Two whole lines, with the caret on the second: the line above, and what the second line has on
the left and on the right of the caret. -/
structure TwoLines where
  above : List Char
  left : List Char
  right : List Char
  above_inLine : '\n' ∉ above
  left_inLine : '\n' ∉ left
  right_inLine : '\n' ∉ right

namespace TwoLines

def text (w : TwoLines) : List Char := w.above ++ '\n' :: (w.left ++ (w.right ++ ['\n']))

def second (w : TwoLines) : Nat := w.above.length + 1

def caret (w : TwoLines) : Nat := w.second + w.left.length

/-- The lines with text before and behind them, which may be any two texts. -/
def document (w : TwoLines) (before behind : List Char) (writable : Bool) : Document :=
  ⟨before ++ (w.text ++ behind), writable⟩

/-- An editor of such a document, with the caret on the second line. -/
def editor (w : TwoLines) (before behind : List Char) (writable : Bool) (session : Session) :
    Editor :=
  ⟨w.document before behind writable, (before.length + w.caret : Nat), session⟩

variable {w : TwoLines} {language : Language} {formatters : Formatters} {options : Indent.Options}
  {p p' q q' : List Char} {writable : Bool}

/-! ## 1. The site

Lines and offsets of the document, calculated from its parts. -/

theorem text_document (w : TwoLines) (p q : List Char) (writable : Bool) :
    (w.document p q writable).text =
      p ++ w.above ++ ['\n'] ++ w.left ++ (w.right ++ '\n' :: q) := by
  simp [document, text]

theorem caret_le (w : TwoLines) (p q : List Char) (writable : Bool) :
    p.length + w.caret ≤ (w.document p q writable).text.length := by
  rw [text_document]
  simp only [List.length_append, List.length_cons, List.length_nil, caret, second]
  omega

theorem length_before (w : TwoLines) (p : List Char) :
    (p ++ w.above ++ ['\n'] ++ w.left).length = p.length + w.caret := by
  simp only [List.length_append, List.length_cons, List.length_nil, caret, second]
  omega

theorem count_before (w : TwoLines) (p : List Char) :
    (p ++ w.above ++ ['\n']).count '\n' = p.count '\n' + 1 := by
  rw [List.count_append, List.count_append, List.count_eq_zero.2 w.above_inLine,
    List.count_singleton_self, Nat.add_zero]

theorem lineNumber_caret (w : TwoLines) (p q : List Char) (writable : Bool) :
    (w.document p q writable).lineNumber (p.length + w.caret : Nat) = p.count '\n' + 1 := by
  have hline := Document.lineNumber_eq (w.text_document p q writable) w.left_inLine
  rwa [length_before, count_before] at hline

theorem startOf_second (w : TwoLines) (p q : List Char) (writable : Bool) :
    (w.document p q writable).startOf (p.count '\n' + 1) = p.length + w.second := by
  have hstart := Document.startOf_eq
    ((w.text_document p q writable).trans (List.append_assoc _ _ _))
    (startsLine_append_newline (p ++ w.above))
  rw [count_before] at hstart
  rw [hstart]
  simp only [List.length_append, List.length_cons, List.length_nil, second]
  omega

/-- The indent of the site is that of the second line, whatever stands behind. -/
theorem indent_site (w : TwoLines) (p q : List Char) (writable : Bool) :
    (Site.of language (w.document p q writable) (p.length + w.caret : Nat)).indent =
      (untilBreak (w.left ++ w.right ++ ['\n'])).takeWhile isBlank := by
  have hindent := Site.indent_of language (w.text_document p q writable)
    (startsLine_append_newline (p ++ w.above)) w.left_inLine
  rwa [length_before, ← List.append_assoc, untilBreak_newline _ q []] at hindent

theorem behind_site (w : TwoLines) (p q : List Char) (writable : Bool) :
    (Site.of language (w.document p q writable) (p.length + w.caret : Nat)).behind =
      untilBreak (w.right ++ ['\n']) := by
  have hbehind := Site.behind_of language (w.text_document p q writable)
  rwa [length_before, untilBreak_newline _ q []] at hbehind

/-- What is seen of the token before the caret, said of the outline of the text before and of the
two lines. -/
theorem seen_site (hp : StartsLine p) (q : List Char) (writable : Bool) :
    (Site.of language (w.document p q writable) (p.length + w.caret : Nat)).seen =
      seenAmong (outline language.blanks 0 (language.lexis.lexemes (p ++ (w.text ++ q)))) p.length
        (p.length + w.second) (p.length + w.caret) := by
  have hfirst : (w.document p q writable).startOf (p.count '\n') = p.length :=
    Document.startOf_eq rfl hp
  rw [Site.seen_of (w.caret_le p q writable), lineNumber_caret, startOf_second,
    Nat.add_sub_cancel, hfirst]
  rfl

/-! ## 2. What stands before and behind

What is seen of the token before the caret, with other texts around the two lines. -/

theorem seenAmong_behind (hL : language.lexis.Regular) (w : TwoLines) (p q q' : List Char)
    (lowest lineStart : Nat) :
    seenAmong (outline language.blanks 0 (language.lexis.lexemes (p ++ (w.text ++ q)))) lowest
        lineStart (p.length + w.caret) =
      seenAmong (outline language.blanks 0 (language.lexis.lexemes (p ++ (w.text ++ q')))) lowest
        lineStart (p.length + w.caret) := by
  have hsplit : ∀ r : List Char, p ++ (w.text ++ r) =
      (p ++ w.above ++ '\n' :: (w.left ++ w.right)) ++ '\n' :: r := by
    intro r
    simp [text]
  rw [hsplit q, hsplit q']
  refine seenAmong_congr (Lexis.filter_outline_newline hL q q' ?_)
  simp only [List.length_append, List.length_cons, caret, second]
  omega

/-- What stands before the lines is not seen if its lexemes do not go on into the lines. -/
theorem seenAmong_before (w : TwoLines)
    (h : language.lexis.IsBoundary (p ++ (w.text ++ q)) p.length) :
    seenAmong (outline language.blanks 0 (language.lexis.lexemes (p ++ (w.text ++ q)))) p.length
        (p.length + w.second) (p.length + w.caret) =
      seenAmong (outline language.blanks 0 (language.lexis.lexemes (w.text ++ q))) 0 w.second
        w.caret := by
  obtain ⟨A, hA, hp⟩ := Lexis.lexemes_boundary h
  have hbefore : ∀ m ∈ outline language.blanks 0 A, m.place < p.length := by
    intro m hm
    have hplace := Lexeme.place_lt_of_mem_outline (fun l hl =>
      Lexis.text_ne_nil_of_mem_lexemes (by rw [hA]; exact List.mem_append_left _ hl)) hm
    rwa [hp, Nat.zero_add] at hplace
  rw [hA, Lexeme.outline_append, seenAmong_append hbefore, hp, Nat.zero_add]
  exact seenAmong_outline language.blanks p.length _ w.second w.caret

/-- What stands before two documents does not matter for their lines: it is the same, or it ends
where a token starts. -/
def Severed (language : Language) (w : TwoLines) (p p' q q' : List Char) : Prop :=
  p = p' ∨ language.lexis.IsBoundary (p ++ (w.text ++ q)) p.length ∧
    language.lexis.IsBoundary (p' ++ (w.text ++ q')) p'.length

/-- **The sites of the two documents are alike.**  The lines are the same, and so is what is seen of
the token before the caret. -/
theorem alike_site (hL : language.lexis.Regular) (hp : StartsLine p) (hp' : StartsLine p')
    (h : Severed language w p p' q q') (writable : Bool) :
    (Site.of language (w.document p q writable) (p.length + w.caret : Nat)).Alike
      (Site.of language (w.document p' q' writable) (p'.length + w.caret : Nat)) where
  indent := by rw [indent_site, indent_site]
  behind := by rw [behind_site, behind_site]
  seen := by
    rw [seen_site hp, seen_site hp']
    rcases h with rfl | ⟨hb, hb'⟩
    · exact seenAmong_behind hL w p q q' _ _
    · have hbehind := seenAmong_behind hL w [] q q' 0 w.second
      rw [List.length_nil, Nat.zero_add] at hbehind
      rw [seenAmong_before w hb, seenAmong_before w hb']
      exact hbehind

end TwoLines

/-! ## 3. The edit

An edit is compared in the text of the two lines, so its offset is counted from where the first of
them starts. -/

/-- A result as an edit of the text behind the first `n` characters. -/
def Result.edit (n : Nat) (r : Result) : Outcome × Option Insertion :=
  (r.outcome, r.insertion.map fun i => ⟨i.offset - n, i.text⟩)

/-- The edit that puts a text in, if there is one, in the text behind some characters. -/
def editOf (place : Nat) : Option (List Char) → Outcome × Option Insertion
  | none => (.defer, none)
  | some text => (.stop, some ⟨place, text⟩)

theorem edit_resultOf {e : Editor} {n k : Nat} (he : e.caret = (n + k : Nat))
    (caret : Option Caret) (text : Option (List Char)) :
    (e.resultOf caret text).edit n = editOf k text := by
  cases text with
  | none => rfl
  | some text =>
    have hk : e.caret - n = k := by omega
    rw [Editor.resultOf, Result.edit, editOf, ← hk]
    rfl

theorem edit_press [Text.Memory] {language : Language} {formatters : Formatters}
    {options : Indent.Options} {e : Editor} {row : Row} {n k : Nat} (he : e.Accepts language)
    (hcaret : e.caret = (n + k : Nat))
    (h : row.Applies language formatters (Site.of language e.document e.caret)) :
    (·.edit n) <$> press language formatters options (some e) =
      editOf k <$>
        row.inserted language options e.document (Site.of language e.document e.caret) := by
  rw [h.press_eq he, Row.result_eq]
  cases row.inserted language options e.document (Site.of language e.document e.caret) with
  | error f => rfl
  | ok text => exact congrArg Except.ok (edit_resultOf hcaret _ text)

namespace TwoLines

theorem accepts_iff {w : TwoLines} {language : Language} {p q : List Char} {writable : Bool}
    {session : Session} :
    (w.editor p q writable session).Accepts language ↔
      language.id ∈ session.languages ∧ session.viewer = false ∧ writable = true := by
  constructor
  · intro h
    exact ⟨h.language_mem, h.not_viewer, h.writable⟩
  · rintro ⟨hlang, hviewer, hwritable⟩
    refine ⟨hlang, hviewer, hwritable, ?_⟩
    show (0 : Int) < (p.length + w.caret : Nat)
    simp only [caret, second]
    omega

/-- One level is put in where no indent is, and the documents show different indents. -/
structure Leaks (w : TwoLines) (language : Language) (formatters : Formatters) (e e' : Editor) :
    Prop where
  opener : Row.opener.Applies language formatters (Site.of language e.document e.caret)
  unindented : (Site.of language e.document e.caret).indent = []
  inferred : Indent.ofDocument e.document ≠ Indent.ofDocument e'.document

/-- The edit that puts in one level in the style of a document, where no indent is. -/
def levelEdit [Text.Memory] (w : TwoLines) (options : Indent.Options) (d : Document) :
    Except Indent.Failure (Outcome × Option Insertion) :=
  (fun level => editOf w.caret (some ('\n' :: level))) <$>
    Indent.level (Indent.usesTabs (Indent.ofDocument d) options) options

/-- Where no indent is, a level in the style of the document is put in. -/
theorem inserted_opener [Text.Memory] (w : TwoLines) {language : Language}
    (options : Indent.Options) {d : Document} {site : Site} (h : site.indent = []) :
    editOf w.caret <$> Row.opener.inserted language options d site = w.levelEdit options d := by
  rw [Row.inserted, h, Indent.deepen, if_pos rfl, levelEdit]
  cases Indent.level (Indent.usesTabs (Indent.ofDocument d) options) options <;> rfl

/-- **Enter looks at two lines.**  In two documents that share the line of the caret and the line
above, a press comes to the same edit of these lines, or has no result for the same reason; unless
one level is put in where no indent is, and the documents show different indents.  Then each press
puts in a level in the style of its document, at the same place, or has no result because there is
no such level. -/
theorem press_eq_or_leak [Text.Memory] {w : TwoLines} {language : Language} {p p' q q' : List Char}
    (hL : language.lexis.Regular) (hp : StartsLine p) (hp' : StartsLine p')
    (h : Severed language w p p' q q') (formatters : Formatters) (options : Indent.Options)
    (writable : Bool) (session session' : Session) (hlang : session.languages = session'.languages)
    (hviewer : session.viewer = session'.viewer) :
    let e := w.editor p q writable session
    let e' := w.editor p' q' writable session'
    (·.edit p.length) <$> press language formatters options (some e) =
        (·.edit p'.length) <$> press language formatters options (some e') ∨
      w.Leaks language formatters e e' ∧
        (·.edit p.length) <$> press language formatters options (some e) =
          w.levelEdit options e.document ∧
        (·.edit p'.length) <$> press language formatters options (some e') =
          w.levelEdit options e'.document := by
  intro e e'
  have haccepts : e.Accepts language ↔ e'.Accepts language := by
    rw [accepts_iff, accepts_iff, hlang, hviewer]
  by_cases he : e.Accepts language
  · have halike : (Site.of language e.document e.caret).Alike
        (Site.of language e'.document e'.caret) := alike_site hL hp hp' h writable
    obtain ⟨row, hrow⟩ := Row.exists_applies language formatters
      (Site.of language e.document e.caret)
    rw [edit_press he rfl hrow, edit_press (haccepts.1 he) rfl (hrow.congr halike)]
    by_cases hleak : row = .opener ∧ (Site.of language e.document e.caret).indent = [] ∧
        Indent.ofDocument e.document ≠ Indent.ofDocument e'.document
    · obtain ⟨rfl, hindent, hinferred⟩ := hleak
      refine .inr ⟨⟨hrow, hindent, hinferred⟩, ?_, ?_⟩
      · exact inserted_opener w options hindent
      · exact inserted_opener w options (halike.indent ▸ hindent)
    · refine .inl ?_
      rw [Row.inserted_congr halike]
      intro hopener
      rw [← halike.indent]
      refine Indent.deepen_congr fun hindent => ?_
      by_contra hinferred
      exact hleak ⟨hopener, hindent, hinferred⟩
  · have hr := (e.accepts_or_refuses language).resolve_left he
    have hr' := (e'.accepts_or_refuses language).resolve_left (mt haccepts.2 he)
    rw [hr.press_eq, hr'.press_eq]
    exact .inl rfl

/-- The line below a brace, at the start of a document and behind a line. -/
theorem press_eq_or_leak_below_brace :
    let _ := Text.Memory.kilobyte
    let w : TwoLines := ⟨['{'], [], [], by decide, by decide, by decide⟩
    let e := w.editor [] [] true ⟨["c"], false, 4⟩
    let e' := w.editor ['x', '\n'] ['y'] true ⟨["c"], false, 8⟩
    Language.c.lexis.Regular ∧ StartsLine [] ∧ StartsLine ['x', '\n'] ∧
      Severed .c w [] ['x', '\n'] [] ['y'] ∧
      (·.edit 0) <$> press .c [] {} (some e) = (·.edit 2) <$> press .c [] {} (some e') := by
  intro _ w e e'
  have hL : Language.c.lexis.Regular :=
    (Language.lawful_of_mem_builtin List.mem_cons_self).short.toRegular
  have hlexemes : Language.c.lexis.lexemes ['{', '\n', '\n'] =
      [] ++ ⟨.lbrace, ['{']⟩ :: [⟨.newline, ['\n']⟩, ⟨.newline, ['\n']⟩] := by cbv
  have hlexemes' : Language.c.lexis.lexemes ['x', '\n', '{', '\n', '\n', 'y'] =
      [⟨.identifier, ['x']⟩, ⟨.newline, ['\n']⟩] ++ ⟨.lbrace, ['{']⟩ ::
        [⟨.newline, ['\n']⟩, ⟨.newline, ['\n']⟩, ⟨.identifier, ['y']⟩] := by cbv
  have hp : StartsLine ['x', '\n'] := .inr rfl
  have hsevered : Severed .c w [] ['x', '\n'] [] ['y'] :=
    .inr ⟨⟨_, Lexis.behind_mem_tokens hlexemes, rfl⟩, ⟨_, Lexis.behind_mem_tokens hlexemes', rfl⟩⟩
  refine ⟨hL, .inl rfl, hp, hsevered, ?_⟩
  rcases press_eq_or_leak hL (.inl rfl) hp hsevered [] {} true ⟨["c"], false, 4⟩
    ⟨["c"], false, 8⟩ rfl rfl with h | ⟨hleak, -⟩
  · exact h
  · exact absurd (by decide) hleak.inferred

/-- A level may be written in tabs, but too wide to be written in spaces.  Then a press below a
brace has a result in one document and none in the other, though what stands before the lines ends
where a token starts. -/
theorem press_level_in_tabs_only :
    let _ := Text.Memory.kilobyte
    let w : TwoLines := ⟨['{'], [], [], by decide, by decide, by decide⟩
    let options : Indent.Options := { size := 0x8000000000000000, tabSize := 0x8000000000000000 }
    let e := w.editor [' ', 'a', '\n'] [] true ⟨["c"], false, 4⟩
    let e' := w.editor ['\t', 'a', '\n'] [] true ⟨["c"], false, 4⟩
    Language.c.lexis.Regular ∧ StartsLine [' ', 'a', '\n'] ∧ StartsLine ['\t', 'a', '\n'] ∧
      Severed .c w [' ', 'a', '\n'] ['\t', 'a', '\n'] [] [] ∧
      press .c [] options (some e) = .error (.width .noCount) ∧
      press .c [] options (some e') = .ok ⟨.stop, some ⟨5, ['\n', '\t']⟩, none⟩ := by
  intro _ w options e e'
  have htail : Language.c.lexis.lexemes ['a', '\n', '{', '\n', '\n'] =
      [⟨.identifier, ['a']⟩, ⟨.newline, ['\n']⟩, ⟨.lbrace, ['{']⟩, ⟨.newline, ['\n']⟩,
        ⟨.newline, ['\n']⟩] := by cbv
  have hlexemes : ∀ c, Text.isBlank c = true →
      Language.c.lexis.lexemes (c :: ['a', '\n', '{', '\n', '\n']) =
        [⟨.ws, [c]⟩, ⟨.identifier, ['a']⟩, ⟨.newline, ['\n']⟩] ++ ⟨.lbrace, ['{']⟩ ::
          [⟨.newline, ['\n']⟩, ⟨.newline, ['\n']⟩] := by
    intro c hc
    have hblank := Lexis.lexemes_blanks (L := Language.c.lexis) (List.cons_ne_nil c [])
      (fun d hd => by rw [List.mem_singleton.1 hd]; exact hc) ['a', '\n', '{', '\n', '\n']
    rw [List.singleton_append] at hblank
    rw [hblank]
    exact congrArg _ htail
  refine ⟨(Language.lawful_of_mem_builtin List.mem_cons_self).short.toRegular, .inr rfl, .inr rfl,
    .inr ⟨⟨_, Lexis.behind_mem_tokens (hlexemes ' ' rfl), rfl⟩,
      ⟨_, Lexis.behind_mem_tokens (hlexemes '\t' rfl), rfl⟩⟩, ?_, ?_⟩
  · refine press_eq_error ?_
    show Decision.of .c [] options ⟨⟨[' ', 'a', '\n', '{', '\n', '\n'], true⟩, 5, _⟩ = _
    rw [Decision.of, Site.of, Language.tokens, Lexis.tokens, hlexemes ' ' rfl]
    decide
  · refine press_eq_ok_iff.2 ⟨.deepen .lbrace ['\t'], ?_, rfl⟩
    show Decision.of .c [] options ⟨⟨['\t', 'a', '\n', '{', '\n', '\n'], true⟩, 5, _⟩ = _
    rw [Decision.of, Site.of, Language.tokens, Lexis.tokens, hlexemes '\t' rfl]
    decide

end TwoLines

end Enter

end SmartEnter
