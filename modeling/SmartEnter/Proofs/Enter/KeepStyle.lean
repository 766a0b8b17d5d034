/-
# Enter keeps the style of the indents

A text may be indented with spaces or with tabs, and nothing says with which.  Every press of Enter
reads it off the text again, with options of its own.  Still no run of presses mixes the two.

* What a press puts in is the indent of the caret's line, and what it adds to that is either a
  comment opener, which ends the indent of the new line, or a level in the style of the text
  (`Row.exists_added`, `Keystroke.exists_broken`).
* So a text that is indented with a character stays so, and a text that has no indent gets the one
  that the options of the press choose (`Keystroke.indentedWith`).  A text that has an indent keeps
  one (`Keystroke.isIndented`).
* By induction over the presses the first press that indents a text chooses for all that follow
  (`Run.keeps_style`).

The induction needs both halves at once.  As long as no line is indented, every character will do,
and the options of the next press may choose; from the first indent on, the text itself chooses, and
options are not asked any more.

If blanks stood behind the caret, they would move to the start of the new line, and they may be of
another kind than the indents.  They do no harm where they belong to the indent of the line.
-/
import SmartEnter.Proofs.Enter.Holding
import SmartEnter.Proofs.Enter.SplitComment
import SmartEnter.Proofs.Indent.Style

namespace SmartEnter

open Text (isBlank IndentedWith IsIndented)

namespace Registry

theorem mem_builtin_of_get? {id : String} {language : Language}
    (h : builtin.get? id = some language) : language ∈ Language.builtin :=
  List.mem_of_find?_eq_some h

theorem get?_id {language : Language} (h : language ∈ Language.builtin) :
    builtin.get? language.id = some language := by
  simp only [Language.builtin, List.mem_cons, List.not_mem_nil, or_false] at h
  rcases h with rfl | rfl | rfl <;> rfl

end Registry

namespace Enter

/-! ## 1. What is added to the indent

What a row puts in starts with the indent of the line, in every case.  Behind it there is nothing,
the opener of a comment, or one more level. -/

/-- What may be added to an indent: code, or a level in the style of the document.  Code starts with
a character that is no blank, so the indent of the new line ends there. -/
structure Added (d : Document) (options : Indent.Options) (indent added : List Char) : Prop where
  inLine : '\n' ∉ added
  code_or_level : (∃ x y, added = x :: y ∧ isBlank x = false) ∨
    ∀ c, isBlank c = true → IndentedWith c d.text →
      (¬IsIndented d.text → c = Indent.levelChar options.useTabs) → (∀ x ∈ indent, x = c) →
        ∀ x ∈ added, x = c

theorem added_nil (d : Document) (options : Indent.Options) (indent : List Char) :
    Added d options indent [] :=
  ⟨List.not_mem_nil, .inr fun _ _ _ _ _ _ hx => absurd hx List.not_mem_nil⟩

/-- **What a row puts in** is the indent of the line with something added. -/
theorem Row.exists_added [Text.Memory] {language : Language} {options : Indent.Options}
    {d : Document} {site : Site} {row : Row} {text : List Char} (hl : language.Lawful)
    (h : row.inserted language options d site = .ok (some text)) :
    ∃ added, text = '\n' :: (site.indent ++ added) ∧ Added d options site.indent added := by
  cases row with
  | split =>
    obtain rfl := Option.some.inj (Except.ok.inj h)
    exact ⟨language.commentLead, rfl, hl.lead_inLine.1,
      .inl (head_isBlank_of_startsLineComment hl hl.lead_starts)⟩
  | formatter => cases h
  | below =>
    obtain rfl := Option.some.inj (Except.ok.inj h)
    exact ⟨[], by rw [List.append_nil], added_nil d options _⟩
  | copy =>
    obtain rfl := Option.some.inj (Except.ok.inj h)
    exact ⟨[], by rw [List.append_nil], added_nil d options _⟩
  | opener =>
    rw [Row.inserted] at h
    cases hd : Indent.deepen site.indent d options with
    | error f =>
      rw [hd] at h
      cases h
    | ok new =>
      rw [hd] at h
      obtain rfl := Option.some.inj (Except.ok.inj h)
      obtain ⟨added, hlevel, rfl⟩ := Indent.exists_level_of_deepen hd
      refine ⟨added, rfl, Text.not_mem_of_isBlank (Indent.isBlank_of_level hlevel), .inr ?_⟩
      intro c hc hs hchoice hold x hx
      rw [Indent.eq_of_mem_level hlevel x hx, Indent.levelChar_eq hc hs hchoice hold]

namespace Typing

variable {t : Typing} {p : Pressed}

theorem exists_inserted_of_enter [Text.Memory] (h : t.enter true = .ok p) :
    ∃ text, t.inserted = .ok text := by
  cases hpress : press t.language t.formatters t.options (some t.editor) with
  | error f =>
    rw [enter_eq_error hpress] at h
    cases h
  | ok result =>
    rw [inserted, hpress]
    exact ⟨_, rfl⟩

/-- A press in an editor that accepts the key, with no formatter, puts in the indent of the line
with something added. -/
theorem exists_document_enter [Text.Memory] (hl : t.language.Lawful) (hf : t.formatters = [])
    (he : t.editor.Accepts t.language) (h : t.enter true = .ok p) :
    ∃ added, p.document = t.document.insert t.caret ('\n' :: (t.site.indent ++ added)) ∧
      Added t.document t.options t.site.indent added := by
  obtain ⟨row, hrow⟩ := Row.exists_applies t.language t.formatters t.site
  obtain ⟨inserted, hinserted⟩ := exists_inserted_of_enter h
  have hrowInserted := hinserted
  rw [inserted_of_applies he hrow] at hrowInserted
  cases inserted with
  | none =>
    obtain rfl := Row.eq_formatter hrowInserted
    cases hrow with
    | formatter _ hid =>
      rw [hf] at hid
      cases hid
  | some text =>
    obtain ⟨added, rfl, hadded⟩ := Row.exists_added hl hrowInserted
    have hdocument : t.pressed.document = p.document := by
      rw [pressed, h]
      rfl
    rw [pressed_of_some hinserted] at hdocument
    exact ⟨added, hdocument.symm, hadded⟩

end Typing

/-! ## 2. One press in a text

A press is taken with all it depends on but the text, and the text that it leaves is described from
the one it finds. -/

/-- A press of Enter, with all it depends on but the text: where the caret is, the language of the
file, and the options that hold at that time. -/
structure Keystroke where
  caret : Nat
  /-- The id of a built-in language. -/
  language : String
  options : Indent.Options := {}
  tabWidth : Int := 4
  deriving Repr, DecidableEq

namespace Keystroke

def press [Text.Memory] (k : Keystroke) (s : List Char) : Except PressFailure
    (List Char × Result) :=
  pressEnter s k.caret k.language k.options k.tabWidth

/-- The typing state of the press in a text, for the language of the id. -/
def typing (k : Keystroke) (language : Language) (s : List Char) : Typing where
  document := { text := s }
  caret := k.caret
  language := language
  options := k.options
  tabWidth := k.tabWidth

/-- The caret is behind the start of the text, and no blank is right behind it, unless it stands in
the indent of its line.  There the blanks are of the kind of the indent. -/
structure Fits (k : Keystroke) (s : List Char) : Prop where
  pos : 1 ≤ k.caret
  le : k.caret ≤ s.length
  behind : (∀ x, s[k.caret]? = some x → isBlank x = false) ∨
    ∃ n, ({ text := s } : Document).firstNonBlank
      (({ text := s } : Document).lineNumber k.caret) = .ok n ∧ k.caret ≤ n

/-- How a press breaks a text in two, `p` and `q`: on the new line it repeats the indent of the
caret's line and adds something.  No blanks are cut off from the rest of a line but those that stand
in its indent. -/
structure Broken (k : Keystroke) (s t p q indent added : List Char) : Prop where
  text_before : s = p ++ q
  text_after : t = p ++ '\n' :: (indent ++ added ++ q)
  indent_eq : ∃ a r, s = a ++ r ∧ StartsLine a ∧ r.takeWhile isBlank = indent
  behind : ∀ x ∈ q.takeWhile isBlank, x ∈ indent
  added : Added { text := s } k.options indent added

variable {k : Keystroke} {s t : List Char} {r : Result}

/-- A press with a result is one in an editor of a built-in language. -/
theorem press_eq_ok [Text.Memory] (h : k.press s = .ok (t, r)) :
    ∃ language ∈ Language.builtin, ∃ p : Pressed,
      (k.typing language s).enter true = .ok p ∧ p.document.text = t := by
  rw [press, pressEnter] at h
  split at h
  · cases h
  next language hget =>
  dsimp only at h
  split at h
  · cases h
  next p hp =>
  cases h
  exact ⟨language, Registry.mem_builtin_of_get? hget, p, hp, rfl⟩

/-- A first part that is not longer than the blanks of a text is made of blanks. -/
theorem isBlank_of_length_le {b q : List Char}
    (h : b.length ≤ ((b ++ q).takeWhile isBlank).length) : ∀ c ∈ b, isBlank c = true := by
  have hprefix : b <+: (b ++ q).takeWhile isBlank :=
    List.prefix_of_prefix_length_le (List.prefix_append b q) (List.takeWhile_prefix _) h
  intro c hc
  exact List.all_eq_true.1 List.all_takeWhile c (List.IsPrefix.subset hprefix hc)

/-- Blanks behind a place in the indent of a line belong to the indent. -/
theorem Fits.mem_indent (h : k.Fits s) {a b q : List Char} (hs : s = a ++ b ++ q)
    (hcaret : k.caret = (a ++ b).length) (ha : StartsLine a) (hb : '\n' ∉ b) :
    ∀ x ∈ q.takeWhile isBlank, x ∈ (b ++ q).takeWhile isBlank := by
  intro x hx
  rcases h.behind with hhead | ⟨n, hn, hle⟩
  · rw [hcaret, hs, List.getElem?_append_right (Nat.le_refl _), Nat.sub_self] at hhead
    cases q with
    | nil => cases hx
    | cons c q =>
      rw [List.takeWhile_cons_of_neg (by simp [hhead c rfl])] at hx
      cases hx
  · have hline := Document.lineNumber_eq (d := { text := s }) hs hb
    have hlt := Document.lineNumber_lt_lineCount (d := { text := s }) h.le
    have hs' := hs.trans (List.append_assoc a b q)
    rw [Document.firstNonBlank_natCast hlt, hcaret, hline,
      Document.startOf_eq (d := { text := s }) hs' ha,
      Document.indentOf_eq (d := { text := s }) hs' ha] at hn
    have hlength := Except.ok.inj hn
    rw [List.length_append] at hcaret
    have hblank : ∀ c ∈ b, isBlank c = true := by
      refine isBlank_of_length_le (q := q) ?_
      omega
    rw [List.takeWhile_append_of_pos hblank]
    exact List.mem_append_right b hx

/-- **A press that has a result breaks the text** as described.  Only a formatter could keep it from
putting something in, and there is none. -/
theorem exists_broken [Text.Memory] (hk : k.Fits s) (h : k.press s = .ok (t, r)) :
    ∃ p q indent added, k.Broken s t p q indent added := by
  obtain ⟨language, hlang, pressed, hpressed, rfl⟩ := press_eq_ok h
  have hl := Language.lawful_of_mem_builtin hlang
  have hpos : 0 < (k.typing language s).editor.caret := Int.natCast_pos.2 hk.pos
  obtain ⟨added, hdocument, hadded⟩ := Typing.exists_document_enter hl rfl
    ⟨List.mem_singleton_self _, rfl, rfl, hpos⟩ hpressed
  obtain ⟨a, b, q, hs, hcaret, ha, hb⟩ := Document.exists_line (d := { text := s }) hk.le
  have hindent := Site.indent_of language hs ha hb
  rw [Lexis.takeWhile_untilBreak] at hindent
  rw [Typing.site, typing] at hdocument hadded
  dsimp only at hdocument hadded hs
  rw [hcaret, hindent] at hdocument hadded
  refine ⟨a ++ b, q, _, added, hs, ?_, ⟨a, b ++ q, ?_, ha, rfl⟩, hk.mem_indent hs hcaret ha hb,
    hadded⟩
  · have hle : (a ++ b).length ≤ s.length := hcaret ▸ hk.le
    rw [hdocument, Document.insert]
    dsimp only
    rw [Text.insertAt_natCast hle, hs, List.take_left, List.drop_left, List.append_assoc,
      List.cons_append]
  · rw [hs, List.append_assoc]

namespace Broken

variable {p q indent added : List Char} {c : Char}

theorem isBlank_indent (h : k.Broken s t p q indent added) : ∀ x ∈ indent, isBlank x = true := by
  obtain ⟨a, y, -, -, rfl⟩ := h.indent_eq
  exact List.all_eq_true.1 List.all_takeWhile

theorem inLine (h : k.Broken s t p q indent added) : '\n' ∉ indent ++ added := by
  rw [List.mem_append, not_or]
  exact ⟨Text.not_mem_of_isBlank h.isBlank_indent, h.added.inLine⟩

/-- The indent of the new line is of the character that the text is indented with: the blanks of the
repeated indent are, those of a level are, and those behind the caret are among the first. -/
theorem eq_of_mem_newLine (h : k.Broken s t p q indent added) (hc : isBlank c = true)
    (hs : IndentedWith c s) (hchoice : ¬IsIndented s → c = Indent.levelChar k.options.useTabs) :
    ∀ x ∈ (indent ++ added ++ q).takeWhile isBlank, x = c := by
  have hindent : ∀ x ∈ indent, x = c := by
    obtain ⟨a, y, hsplit, ha, rfl⟩ := h.indent_eq
    exact Text.indentedWith_iff.1 hs a y hsplit ha
  rw [List.append_assoc, List.takeWhile_append_of_pos h.isBlank_indent]
  intro x hx
  rcases List.mem_append.1 hx with hx | hx
  · exact hindent x hx
  rcases h.added.code_or_level with ⟨y, z, rfl, hy⟩ | hlevel
  · -- code ends the indent
    rw [List.cons_append, List.takeWhile_cons_of_neg (by simp [hy])] at hx
    cases hx
  · have hadded := hlevel c hc hs hchoice hindent
    have hblank : ∀ y ∈ added, isBlank y = true := fun y hy => hadded y hy ▸ hc
    rw [List.takeWhile_append_of_pos hblank] at hx
    exact (List.mem_append.1 hx).elim (hadded x) fun hx => hindent x (h.behind x hx)

end Broken

/-- **A press keeps the style of a text.**  Where no line is indented, its options choose one. -/
theorem indentedWith [Text.Memory] {c : Char} (hk : k.Fits s) (h : k.press s = .ok (t, r))
    (hc : isBlank c = true) (hs : IndentedWith c s)
    (hchoice : ¬IsIndented s → c = Indent.levelChar k.options.useTabs) : IndentedWith c t := by
  obtain ⟨p, q, indent, added, hbroken⟩ := exists_broken hk h
  have hnew := hbroken.eq_of_mem_newLine hc hs hchoice
  rw [hbroken.text_before] at hs
  rw [hbroken.text_after]
  exact hs.insert hbroken.inLine hnew

theorem isIndented [Text.Memory] (hk : k.Fits s) (h : k.press s = .ok (t, r)) (hs : IsIndented s) :
    IsIndented t := by
  obtain ⟨p, q, indent, added, hbroken⟩ := exists_broken hk h
  rw [hbroken.text_before] at hs
  rw [hbroken.text_after]
  refine hs.insert fun hq => ?_
  obtain ⟨x, hx⟩ := List.exists_mem_of_ne_nil _ hq
  rw [List.append_assoc, List.takeWhile_append_of_pos hbroken.isBlank_indent]
  exact List.append_ne_nil_of_left_ne_nil (List.ne_nil_of_mem (hbroken.behind x hx)) _

/-- **A press has a result** if the language is built in and a level can be written. -/
theorem exists_press [Text.Memory] {language : Language} (hlang : language ∈ Language.builtin)
    (hid : k.language = language.id) (hsize : 0 < k.options.size) (htab : 0 < k.options.tabSize)
    (hwidth : k.options.size ≤ Text.Memory.limit) (s : List Char) : ∃ x, k.press s = .ok x := by
  obtain ⟨answer, hanswer⟩ := Typing.exists_answer (t := k.typing language s) hsize htab hwidth
  rw [press, pressEnter, hid, Registry.get?_id hlang]
  cases hp : (k.typing language s).enter true with
  | error f =>
    rw [Typing.answer, hp] at hanswer
    cases hanswer
  | ok p => exact ⟨_, by dsimp only; rw [← typing, hp]⟩

end Keystroke

/-! ## 3. Runs

A run is a list of presses with the texts that they leave.  Both statements about runs are by
induction over the list, with the one about a press as their step. -/

/-- A run of presses from a text on, each with the text that it leaves.  Language, options and caret
may be others at every press. -/
inductive Run [Text.Memory] : List Char → List (Keystroke × List Char) → Prop
  | nil (s : List Char) : Run s []
  | cons {k : Keystroke} {s t : List Char} {r : Result} {steps : List (Keystroke × List Char)}
      (hk : k.Fits s) (h : k.press s = .ok (t, r)) (hrun : Run t steps) :
      Run s ((k, t) :: steps)

namespace Run

variable {s : List Char} {steps : List (Keystroke × List Char)} {c : Char}

/-- A text with indents stays indented with the character. -/
theorem indentedWith [Text.Memory] (hrun : Run s steps) (hc : isBlank c = true)
    (hindented : IsIndented s) (hs : IndentedWith c s) : ∀ x ∈ steps, IndentedWith c x.2 := by
  induction hrun with
  | nil => nofun
  | cons hk h _ ih =>
    have ht := Keystroke.indentedWith hk h hc hs fun hnot => absurd hindented hnot
    exact List.forall_mem_cons.2 ⟨ht, ih (Keystroke.isIndented hk h hindented) ht⟩

/-- In a text without indents, the first press that indents it chooses the character.  The presses
before it leave a text without indents, so they do not count. -/
theorem first_indented [Text.Memory] (hrun : Run s steps) (hs : ¬IsIndented s) :
    (∀ x ∈ steps, ¬IsIndented x.2) ∨ ∃ before k t after, steps = before ++ (k, t) :: after ∧
      (∀ x ∈ before, ¬IsIndented x.2) ∧ IsIndented t ∧
      ∀ x ∈ steps, IndentedWith (Indent.levelChar k.options.useTabs) x.2 := by
  induction hrun with
  | nil => exact .inl nofun
  | @cons k s t r steps hk h hrun ih =>
    by_cases ht : IsIndented t
    · have hc := Indent.isBlank_levelChar k.options.useTabs
      have hstyle := Keystroke.indentedWith hk h hc (Text.indentedWith_of_not_isIndented hs _)
        fun _ => rfl
      exact .inr ⟨[], k, t, steps, rfl, nofun, ht,
        List.forall_mem_cons.2 ⟨hstyle, hrun.indentedWith hc ht hstyle⟩⟩
    · rcases ih ht with hnone | ⟨before, j, u, after, rfl, hbefore, hu, hall⟩
      · exact .inl (List.forall_mem_cons.2 ⟨ht, hnone⟩)
      · refine .inr ⟨(k, t) :: before, j, u, after, rfl,
          List.forall_mem_cons.2 ⟨ht, hbefore⟩, hu, ?_⟩
        exact List.forall_mem_cons.2 ⟨Text.indentedWith_of_not_isIndented ht _, hall⟩

/-- **Enter never mixes styles.**  In a run of presses, each with a language, options and a caret of
its own, every text is indented with one character: with the one of the first text if that has
indents, else with the one that the options of the first press to indent the text choose.  Every
press with positive sizes has a result if a level is not too wide for a text. -/
theorem keeps_style [Text.Memory] (hrun : Run s steps) :
    (∀ c, isBlank c = true → IsIndented s → IndentedWith c s → ∀ x ∈ steps, IndentedWith c x.2) ∧
      (¬IsIndented s → (∀ x ∈ steps, ¬IsIndented x.2) ∨
        ∃ before k t after, steps = before ++ (k, t) :: after ∧ (∀ x ∈ before, ¬IsIndented x.2) ∧
          IsIndented t ∧ ∀ x ∈ steps, IndentedWith (Indent.levelChar k.options.useTabs) x.2) ∧
      ∀ (k : Keystroke) (language : Language), language ∈ Language.builtin →
        k.language = language.id → 0 < k.options.size → 0 < k.options.tabSize →
          k.options.size ≤ Text.Memory.limit → ∀ t, ∃ x, k.press t = .ok x :=
  ⟨fun _ hc hindented hs => hrun.indentedWith hc hindented hs, hrun.first_indented,
    fun _ _ hlang hid hsize htab hwidth t =>
      Keystroke.exists_press hlang hid hsize htab hwidth t⟩

/-- Behind a brace, the first press puts in spaces, and so does the second one, though it has
options for tabs. -/
theorem keeps_style_behind_brace :
    let _ := Text.Memory.kilobyte
    let spaces : Keystroke := { caret := 1, language := "c", options := { size := 2 } }
    let tabs : Keystroke := { caret := 4, language := "c", options := { useTabs := true } }
    let steps := [(spaces, ['{', '\n', ' ', ' ']),
      (tabs, ['{', '\n', ' ', ' ', '\n', ' ', ' ', ' ', ' ', ' ', ' '])]
    Run ['{'] steps ∧ ¬IsIndented ['{'] ∧
      ((∀ x ∈ steps, ¬IsIndented x.2) ∨
        ∃ before k t after, steps = before ++ (k, t) :: after ∧ (∀ x ∈ before, ¬IsIndented x.2) ∧
          IsIndented t ∧ ∀ x ∈ steps, IndentedWith (Indent.levelChar k.options.useTabs) x.2) := by
  intro _ spaces tabs steps
  have hlang : Registry.builtin.get? "c" = some .c := by rfl
  have hlexemes : Language.c.lexis.lexemes ['{'] = [⟨.lbrace, ['{']⟩] := by cbv
  have hbelow : Language.c.lexis.lexemes ['{', '\n', ' ', ' '] =
      [⟨.lbrace, ['{']⟩, ⟨.newline, ['\n']⟩, ⟨.ws, [' ', ' ']⟩] := by cbv
  have hfirst : spaces.press ['{'] = .ok (['{', '\n', ' ', ' '],
      ⟨.stop, some ⟨1, ['\n', ' ', ' ']⟩, none⟩) := by
    rw [Keystroke.press, pressEnter, hlang]
    dsimp only
    rw [Typing.enter, if_pos rfl, press, Decision.of, Site.of, Language.tokens, Lexis.tokens,
      Typing.editor, hlexemes]
    rfl
  have hsecond : tabs.press ['{', '\n', ' ', ' '] =
      .ok (['{', '\n', ' ', ' ', '\n', ' ', ' ', ' ', ' ', ' ', ' '],
        ⟨.stop, some ⟨4, ['\n', ' ', ' ', ' ', ' ', ' ', ' ']⟩, none⟩) := by
    rw [Keystroke.press, pressEnter, hlang]
    dsimp only
    rw [Typing.enter, if_pos rfl, press, Decision.of, Site.of, Language.tokens, Lexis.tokens,
      Typing.editor, hbelow]
    rfl
  -- both carets are at the end of the text
  have hnone : ∀ x, (none : Option Char) = some x → isBlank x = false := by
    intro x hx
    cases hx
  have hrun : Run ['{'] steps :=
    .cons ⟨by decide, by decide, .inl hnone⟩ hfirst
      (.cons ⟨by decide, by decide, .inl hnone⟩ hsecond (.nil _))
  have hnot : ¬IsIndented ['{'] := by
    rw [← Indent.ofDocument_eq_nil_iff (d := { text := ['{'] })]
    rfl
  exact ⟨hrun, hnot, (keeps_style hrun).2.1 hnot⟩

end Run

end Enter

end SmartEnter
