/-
# Holding Enter

Enter is pressed again and again, and each press finds the text that the one before has left.  From
the second press on, every press comes to the same: the same text is put in, or none
(`steady_pressed`).  So the indent of the caret's line changes with the first two presses at most.

A press that puts nothing in changes nothing, and so does every press behind it.  A press that puts
something in leaves the caret on a new line, and one of three things is true there.

* A comment was split.  Then it is split again by every further press (`steady_of_split`).
* The line above has nothing but layout.  Then every further press copies the indent, or leaves the
  key to a formatter (`steady_of_layout`).
* The line above may open a block or end with a comment.  Then the next press comes to one of the
  cases before, and if it is the second, it has put in the indent that is copied from then on
  (`steady_of_newLine`).

Each case is an invariant of the text before the caret: a property that makes a press put in a
certain text, and that still holds when the text has been put in (`steady_of_invariant`).  What
stands behind the caret never changes.

If blanks stood behind the caret, they would be added to the indent of the new line, and the press
behind would copy them, too.  The indent would grow with every press.
-/
import SmartEnter.Enter.Typing
import SmartEnter.Proofs.Enter.NewLine

namespace SmartEnter

open Lexis (untilBreak IsLayout)
open Text (isBlank)

namespace Enter

namespace Typing

variable {t : Typing} {a b r u v x : List Char} {row : Row}

/-! ## 1. Presses in a row

A press that has no result changes nothing, so the same press comes again.  Holding the key is then
the iteration of one function on states. -/

variable [Text.Memory]

/-- What a press of Enter says: the outcome and the text that is put in, or why there is no
result. -/
def answer (t : Typing) : Except Indent.Failure (Outcome × Option (List Char)) :=
  (fun p => (p.result.outcome, p.result.insertion.map (·.text))) <$> t.enter true

/-- The state after a press of Enter.  A press without a result changes nothing: an error is shown,
and the buffer stays as it is. -/
def pressed (t : Typing) : Typing :=
  match t.enter true with
  | .ok p => t.after p
  | .error _ => t

/-- The state after `n` presses of Enter in a row.  So `(t.held n).answer` is what the press behind
them says. -/
def held (t : Typing) : Nat → Typing
  | 0 => t
  | n + 1 => (t.held n).pressed

def indent (t : Typing) : List Char := t.document.indentOf (t.document.lineNumber t.caret)

def site (t : Typing) : Site := Site.of t.language t.document t.caret

/-- The text that a press of Enter puts in, if any.  It is the only thing that later presses can
depend on. -/
def inserted (t : Typing) : Except Indent.Failure (Option (List Char)) :=
  (·.insertion.map (·.text)) <$> press t.language t.formatters t.options (some t.editor)

theorem held_succ (t : Typing) (n : Nat) : t.held (n + 1) = t.pressed.held n := by
  induction n with
  | zero => rfl
  | succ n ih => exact congrArg pressed ih

/-! ## 2. One press

What a press puts in is all that has to be known of it.  The answer can be told from that, and so
can the state after the press. -/

def answerOf : Option (List Char) → Outcome × Option (List Char)
  | none => (.defer, none)
  | some text => (.stop, some text)

theorem enter_eq_ok {result : Result}
    (h : press t.language t.formatters t.options (some t.editor) = .ok result) :
    t.enter true = .ok ⟨result, result.apply t.document,
      result.caretAfter (result.apply t.document) t.tabWidth⟩ := by
  rw [enter, if_pos rfl, h]
  rfl

theorem enter_eq_error {f : Indent.Failure}
    (h : press t.language t.formatters t.options (some t.editor) = .error f) :
    t.enter true = .error f := by
  rw [enter, if_pos rfl, h]
  rfl

/-- What is put in tells the whole answer: the key is used up exactly if something is. -/
theorem answer_eq (t : Typing) : t.answer = answerOf <$> t.inserted := by
  rw [answer, inserted]
  cases hpress : press t.language t.formatters t.options (some t.editor) with
  | error f =>
    rw [enter_eq_error hpress]
    rfl
  | ok result =>
    rw [enter_eq_ok hpress]
    refine congrArg Except.ok ?_
    obtain ⟨decision, -, rfl⟩ := press_eq_ok_iff.1 hpress
    dsimp only
    cases hi : decision.inserted with
    | none =>
      rw [Decision.result_of_not_inserted hi]
      rfl
    | some text =>
      obtain ⟨houtcome, hinsertion⟩ := Decision.result_of_inserted (e := t.editor) hi
      rw [houtcome, hinsertion]
      rfl

theorem pressed_of_some {text : List Char} (h : t.inserted = .ok (some text)) :
    t.pressed = t.put text := by
  rw [inserted] at h
  rw [pressed]
  cases hpress : press t.language t.formatters t.options (some t.editor) with
  | error f =>
    rw [hpress] at h
    cases h
  | ok result =>
    rw [hpress] at h
    obtain ⟨i, hi, rfl⟩ := Option.map_eq_some_iff.1 (Except.ok.inj h)
    obtain ⟨decision, -, rfl⟩ := press_eq_ok_iff.1 hpress
    obtain ⟨hinserted, hoffset⟩ := Decision.inserted_of_insertion hi
    obtain ⟨houtcome, -⟩ := Decision.result_of_inserted (e := t.editor) hinserted
    have happly : (decision.result t.editor).apply t.document =
        t.document.insert t.caret i.text := by
      rw [Result.apply, houtcome, hi]
      dsimp only
      rw [hoffset]
      rfl
    rw [enter_eq_ok hpress]
    dsimp only
    rw [after, put]
    dsimp only
    rw [happly, hi, Option.map_some, Option.getD_some, hoffset]
    rfl

theorem pressed_of_not_some (h : ¬∃ text, t.inserted = .ok (some text)) : t.pressed = t := by
  rw [pressed]
  cases hpress : press t.language t.formatters t.options (some t.editor) with
  | error f => rw [enter_eq_error hpress]
  | ok result =>
    have hnone : result.insertion = none := by
      cases hi : result.insertion with
      | none => rfl
      | some i =>
        refine absurd ⟨i.text, ?_⟩ h
        rw [inserted, hpress]
        exact congrArg Except.ok (congrArg (Option.map Insertion.text) hi)
    have happly : result.apply t.document = t.document := by
      rw [Result.apply, hnone]
      cases result.outcome <;> rfl
    rw [enter_eq_ok hpress]
    dsimp only
    rw [after]
    dsimp only
    rw [happly, hnone]
    rfl

theorem inserted_of_refuses (h : t.editor.Refuses t.language) : t.inserted = .ok none := by
  rw [inserted, h.press_eq]
  rfl

theorem inserted_of_applies (he : t.editor.Accepts t.language)
    (h : row.Applies t.language t.formatters t.site) :
    t.inserted = row.inserted t.language t.options t.document t.site := by
  have hpress : press t.language t.formatters t.options (some t.editor) =
      t.editor.resultOf _ <$> row.inserted t.language t.options t.document t.site :=
    (h.press_eq he).trans (row.result_eq t.language t.options t.editor _ _)
  rw [inserted, hpress]
  cases row.inserted t.language t.options t.document t.site with
  | error f => rfl
  | ok text => cases text <;> rfl

/-- What is put in is a line feed and the text of a line. -/
theorem exists_inserted (hl : t.language.Lawful) {text : List Char}
    (h : t.inserted = .ok (some text)) : ∃ b, text = '\n' :: b ∧ '\n' ∉ b := by
  rcases t.editor.accepts_or_refuses t.language with he | he
  · obtain ⟨row, hrow⟩ := Row.exists_applies t.language t.formatters t.site
    rw [inserted_of_applies he hrow] at h
    exact Row.exists_inserted hl.lead_inLine.1 (isBlank_indent t.language t.document t.caret) h
  · rw [inserted_of_refuses he] at h
    cases h

/-- A press has an answer if a level of the options can be written. -/
theorem exists_answer (hsize : 0 < t.options.size) (htab : 0 < t.options.tabSize)
    (hwidth : t.options.size ≤ Text.Memory.limit) : ∃ x, t.answer = .ok x := by
  rw [answer_eq]
  rcases t.editor.accepts_or_refuses t.language with he | he
  · obtain ⟨row, hrow⟩ := Row.exists_applies t.language t.formatters t.site
    obtain ⟨text, htext⟩ := Row.inserted_eq_ok hsize htab hwidth t.document
    rw [inserted_of_applies he hrow, htext]
    exact ⟨_, rfl⟩
  · rw [inserted_of_refuses he]
    exact ⟨_, rfl⟩

/-! ## 3. Presses that all put in the same

Being steady is said of what is put in at each press.  The key to it is that presses change the text
before the caret only, so a state may be described by that text. -/

/-- All presses in a row put in the same, or fail for the same reason.  With `answer_eq` and
`pressed_of_some` all else that a press does is the same then, too. -/
def Steady (t : Typing) : Prop := ∀ n, (t.held n).inserted = t.inserted

theorem Steady.pressed (h : t.Steady) : t.pressed.Steady := by
  intro n
  rw [← held_succ, h (n + 1)]
  exact (h 1).symm

/-- If the first press puts in what the others put in, they all put in the same. -/
theorem Steady.of_pressed (h : t.pressed.Steady) (heq : t.pressed.inserted = t.inserted) :
    t.Steady := by
  intro n
  cases n with
  | zero => rfl
  | succ n => rw [held_succ, h n, heq]

theorem held_of_not_some (h : ¬∃ text, t.inserted = .ok (some text)) (n : Nat) :
    t.held n = t := by
  induction n with
  | zero => rfl
  | succ n ih => rw [held, ih, pressed_of_not_some h]

theorem steady_of_not_some (h : ¬∃ text, t.inserted = .ok (some text)) : t.Steady := by
  intro n
  rw [held_of_not_some h n]

/-- The state with another text before and behind the caret, all else being the same. -/
def place (t : Typing) (u r : List Char) : Typing :=
  { t with document := ⟨u ++ r, t.document.writable⟩, caret := u.length }

omit [Text.Memory] in
theorem put_place (t : Typing) (u r text : List Char) :
    (t.place u r).put text = t.place (u ++ text) r := by
  have hle : u.length ≤ (u ++ r).length := (List.prefix_append u r).length_le
  have hinsert := Text.insertAt_natCast hle text
  rw [List.take_left, List.drop_left] at hinsert
  have hlength : (u.length : Int) + text.length = ((u ++ text).length : Nat) := by
    rw [List.length_append, Int.natCast_add]
  rw [put, place, place, Document.insert]
  dsimp only
  rw [hinsert, hlength]

omit [Text.Memory] in
theorem place_take_drop {n : Nat} (hcaret : t.caret = n) (hn : n ≤ t.document.text.length) :
    t.place (t.document.text.take n) (t.document.text.drop n) = t := by
  rw [place, List.take_append_drop, List.length_take, Nat.min_eq_left hn, ← hcaret]

theorem exists_held_place (t : Typing) (u r : List Char) (n : Nat) :
    ∃ v, (t.place u r).held n = t.place v r := by
  induction n with
  | zero => exact ⟨u, rfl⟩
  | succ n ih =>
    obtain ⟨v, hv⟩ := ih
    rw [held, hv]
    by_cases h : ∃ text, (t.place v r).inserted = .ok (some text)
    · obtain ⟨text, htext⟩ := h
      exact ⟨v ++ text, by rw [pressed_of_some htext, put_place]⟩
    · exact ⟨v, pressed_of_not_some h⟩

/-- **Presses are steady** if each puts in the same text and keeps what it depends on.  By induction
over the presses: the property holds of the text before the caret, however often the text was put
in. -/
theorem steady_of_invariant (P : List Char → Prop) (text : List Char)
    (hstep : ∀ u, P u → (t.place u r).inserted = .ok (some text) ∧ P (u ++ text)) (hu : P u) :
    (t.place u r).Steady := by
  have hheld : ∀ n, ∃ v, (t.place u r).held n = t.place v r ∧ P v := by
    intro n
    induction n with
    | zero => exact ⟨u, rfl, hu⟩
    | succ n ih =>
      obtain ⟨v, hv, hP⟩ := ih
      refine ⟨v ++ text, ?_, (hstep v hP).2⟩
      rw [held, hv, pressed_of_some (hstep v hP).1, put_place]
  intro n
  obtain ⟨v, hv, hP⟩ := hheld n
  rw [hv, (hstep v hP).1, (hstep u hu).1]

/-! ## 4. On a new line

The three cases of the header, each with the invariant that makes presses steady. -/

section NewLine

variable (hl : t.language.Lawful) (hr : (untilBreak r).head?.any isBlank = false)

omit [Text.Memory] in
/-- An editor that accepts the key does so wherever the caret is, but at the start. -/
theorem accepts_place (he : (t.place u r).editor.Accepts t.language) (hv : v ≠ []) :
    (t.place v r).editor.Accepts t.language where
  language_mem := he.language_mem
  not_viewer := he.not_viewer
  writable := he.writable
  caret_pos := Int.natCast_pos.2 (List.length_pos_iff.2 hv)

include hr in
omit [Text.Memory] in
theorem indent_newLine (hb : ∀ c ∈ b, isBlank c = true) :
    (t.place (v ++ '\n' :: b) r).site.indent = b := by
  have htext : (t.place (v ++ '\n' :: b) r).document.text = v ++ ['\n'] ++ (b ++ []) ++ r := by
    simp [place]
  have hindent := Site.indent_of_blanks t.language htext (startsLine_append_newline v) hb
    (Text.unbroken_nil r) hr
  rwa [List.append_nil, List.append_assoc, List.singleton_append] at hindent

include hl in
/-- **A comment that is split is split by every further press.**  The invariant is that the row of
the split applies, with the indent of the line. -/
theorem steady_of_split (hL : t.language.lexis.OpensWithTwo) (hu : u ≠ [])
    (he : (t.place u r).editor.Accepts t.language)
    (hrow : Row.split.Applies t.language t.formatters (t.place u r).site) :
    (t.place u r).Steady := by
  have hb : ∀ c ∈ (t.place u r).site.indent, isBlank c = true := isBlank_indent _ _ _
  refine steady_of_invariant (fun v => v ≠ [] ∧
      Row.split.Applies t.language t.formatters (t.place v r).site ∧
      (t.place v r).site.indent = (t.place u r).site.indent)
    ('\n' :: ((t.place u r).site.indent ++ t.language.commentLead)) ?_ ⟨hu, hrow, rfl⟩
  rintro v ⟨hv, hsplit, hindent⟩
  constructor
  · rw [inserted_of_applies (accepts_place he hv) hsplit, Row.inserted, hindent]
    rfl
  · refine ⟨List.append_ne_nil_of_left_ne_nil hv _, ?_, ?_⟩
    · exact hsplit.split_again hl hL rfl hv hb rfl
    · exact Site.indent_of_split hl hb rfl

include hl hr in
/-- Below a line of layout, the indent is copied, unless a formatter takes care of the key.  No
token is found, so neither an opener nor a comment has a say. -/
theorem inserted_of_layout (he : (t.place (a ++ (x ++ '\n' :: b)) r).editor.Accepts t.language)
    (ha : StartsLine a) (hx : '\n' ∉ x) (hlayout : IsLayout (x ++ ['\n']))
    (hb : ∀ c ∈ b, isBlank c = true) :
    (t.place (a ++ (x ++ '\n' :: b)) r).inserted =
      if t.language.id ∈ t.formatters then .ok none else .ok (some ('\n' :: b)) := by
  have hlayout' : IsLayout (x ++ '\n' :: b) := by
    have hboth := hlayout.append (Lexis.isLayout_of_blanks hb)
    rwa [List.append_assoc, List.singleton_append] at hboth
  have hnone : (t.place (a ++ (x ++ '\n' :: b)) r).site.token = none :=
    Site.token_eq_none hl rfl ha hx (Text.not_mem_of_isBlank hb) hlayout'
  have hindent : (t.place (a ++ (x ++ '\n' :: b)) r).site.indent = b := by
    rw [← List.append_assoc]
    exact indent_newLine hr hb
  obtain ⟨row, hrow⟩ := Row.exists_applies t.language t.formatters
    (t.place (a ++ (x ++ '\n' :: b)) r).site
  rw [inserted_of_applies he hrow]
  cases hrow with
  | split hc _ =>
    obtain ⟨k, hk, -⟩ := hc
    rw [hnone] at hk
    cases hk
  | below hc _ =>
    obtain ⟨k, hk, -⟩ := hc
    rw [hnone] at hk
    cases hk
  | formatter _ hf => exact (if_pos hf).symm
  | opener _ _ ho =>
    obtain ⟨k, hk, -⟩ := ho
    rw [hnone] at hk
    cases hk
  | copy _ hf _ =>
    rw [if_neg hf, Row.inserted, hindent]

include hl hr in
/-- **Below a line of layout, all presses do the same.**  The invariant is that the line above has
nothing but layout, and a press makes such a line of the indent that it leaves. -/
theorem steady_of_layout (he : (t.place (a ++ (x ++ '\n' :: b)) r).editor.Accepts t.language)
    (ha : StartsLine a) (hx : '\n' ∉ x) (hlayout : IsLayout (x ++ ['\n']))
    (hb : ∀ c ∈ b, isBlank c = true) :
    (t.place (a ++ (x ++ '\n' :: b)) r).Steady := by
  by_cases hf : t.language.id ∈ t.formatters
  · refine steady_of_not_some ?_
    rw [inserted_of_layout hl hr he ha hx hlayout hb, if_pos hf]
    rintro ⟨text, h⟩
    cases h
  · refine steady_of_invariant (fun u => ∃ a x, u = a ++ (x ++ '\n' :: b) ∧ StartsLine a ∧
        '\n' ∉ x ∧ IsLayout (x ++ ['\n'])) ('\n' :: b) ?_ ⟨a, x, rfl, ha, hx, hlayout⟩
    rintro u ⟨a, x, rfl, ha, hx, hlayout⟩
    constructor
    · rw [inserted_of_layout hl hr (accepts_place he (by simp)) ha hx hlayout hb, if_neg hf]
    · refine ⟨a ++ x ++ ['\n'], b, by simp, startsLine_append_newline _, ?_, ?_⟩
      · exact Text.not_mem_of_isBlank hb
      · exact (Lexis.isLayout_of_blanks hb).append (Lexis.isLayout_break (.inl rfl))

include hl hr in
/-- **On a line that was put in, all presses do the same**, if no formatter takes care of the key.
Any row but that of an opener applies here, because the line holds nothing but its indent. -/
theorem steady_of_newLine (hL : t.language.lexis.OpensWithTwo) (hf : t.language.id ∉ t.formatters)
    (he : (t.place (v ++ '\n' :: b) r).editor.Accepts t.language)
    (hb : ∀ c ∈ b, isBlank c = true) : (t.place (v ++ '\n' :: b) r).Steady := by
  obtain ⟨row, hrow⟩ := Row.exists_applies t.language t.formatters (t.place (v ++ '\n' :: b) r).site
  by_cases hsplit : row = .split
  · subst hsplit
    exact steady_of_split hl hL (by simp) he hrow
  by_cases hsome : ∃ text, (t.place (v ++ '\n' :: b) r).inserted = .ok (some text)
  · obtain ⟨text, htext⟩ := hsome
    have htext' := htext
    rw [inserted_of_applies he hrow] at htext'
    obtain ⟨b', rfl, hb'⟩ := Row.isBlank_inserted hsplit (isBlank_indent _ _ _) htext'
    have hpressed : (t.place (v ++ '\n' :: b) r).pressed =
        t.place (v ++ ['\n'] ++ (b ++ '\n' :: b')) r := by
      rw [pressed_of_some htext, put_place]
      simp
    -- the line above is the one that was put in before
    have ha := startsLine_append_newline v
    have hx : '\n' ∉ b := Text.not_mem_of_isBlank hb
    have hlayout := (Lexis.isLayout_of_blanks hb).append (Lexis.isLayout_break (.inl rfl))
    have he' : (t.place (v ++ ['\n'] ++ (b ++ '\n' :: b')) r).editor.Accepts t.language :=
      accepts_place he (by simp)
    refine Steady.of_pressed ?_ ?_
    · rw [hpressed]
      exact steady_of_layout hl hr he' ha hx hlayout hb'
    · rw [hpressed, inserted_of_layout hl hr he' ha hx hlayout hb', if_neg hf, htext]
  · exact steady_of_not_some hsome

include hl hr in
/-- **Behind the first press, all presses do the same.**  If the first press put nothing in, it is
one of them; else the caret is on a new line. -/
theorem steady_pressed (hL : t.language.lexis.OpensWithTwo) (hu : u ≠ []) :
    (t.place u r).pressed.Steady := by
  by_cases hsome : ∃ text, (t.place u r).inserted = .ok (some text)
  swap
  · exact (steady_of_not_some hsome).pressed
  obtain ⟨text, htext⟩ := hsome
  rcases (t.place u r).editor.accepts_or_refuses t.language with he | he
  swap
  · rw [inserted_of_refuses he] at htext
    cases htext
  obtain ⟨row, hrow⟩ := Row.exists_applies t.language t.formatters (t.place u r).site
  by_cases hsplit : row = .split
  · subst hsplit
    exact (steady_of_split hl hL hu he hrow).pressed
  have htext' := htext
  rw [inserted_of_applies he hrow] at htext'
  obtain ⟨b, rfl, hb⟩ := Row.isBlank_inserted hsplit (isBlank_indent _ _ _) htext'
  have he' : (t.place (u ++ '\n' :: b) r).editor.Accepts t.language := accepts_place he (by simp)
  rw [pressed_of_some htext, put_place]
  cases row with
  | split => exact absurd rfl hsplit
  | below =>
    obtain ⟨a, x, rfl, ha, hx, hlayout⟩ := hrow.layout_of_below hl rfl hu
    rw [List.append_assoc] at he' ⊢
    exact steady_of_layout hl hr he' ha hx hlayout hb
  | formatter => cases htext'
  | opener =>
    cases hrow with
    | opener _ hf _ => exact steady_of_newLine hl hr hL hf he' hb
  | copy =>
    cases hrow with
    | copy _ hf _ => exact steady_of_newLine hl hr hL hf he' hb

end NewLine

/-! ## 5. Holding the key

The condition of the statement is about the line behind the caret; it is the same as that no blank
stands right behind the caret, up to the break. -/

theorem Steady.indent_held (h : (t.place u r).Steady) (hl : t.language.Lawful) (n : Nat) :
    ((t.place u r).held (n + 1)).indent = ((t.place u r).held 1).indent := by
  by_cases hsome : ∃ text, (t.place u r).inserted = .ok (some text)
  · obtain ⟨text, htext⟩ := hsome
    obtain ⟨b, rfl, hb⟩ := exists_inserted (t := t.place u r) hl htext
    have hindent : ∀ m, ((t.place u r).held (m + 1)).indent =
        (untilBreak (b ++ r)).takeWhile isBlank := by
      intro m
      obtain ⟨v, hv⟩ := exists_held_place t u r m
      have hm : (t.place v r).inserted = .ok (some ('\n' :: b)) := by
        rw [← hv, h m, htext]
      have hline : (t.place (v ++ '\n' :: b) r).document.text = v ++ ['\n'] ++ b ++ r := by
        simp [place]
      have hsite := Site.indent_of t.language hline (startsLine_append_newline v) hb
      rw [List.append_assoc, List.singleton_append] at hsite
      rw [held, hv, pressed_of_some hm, put_place]
      exact hsite
    rw [hindent n, hindent 0]
  · rw [held_of_not_some hsome (n + 1), held_of_not_some hsome 1]

/-- **Holding Enter settles down.**  If no blank is right behind the caret, then from the second
press on all presses come to the same: the same text is put in, or none, or there is no result for
the same reason.  So the indent of the caret's line is the same from then on.  With positive sizes
every press has a result if a level is not too wide for a text. -/
theorem held_settles {t : Typing} {n : Nat} (hlang : t.language ∈ Language.builtin)
    (hcaret : t.caret = n) (hpos : 1 ≤ n) (hn : n ≤ t.document.text.length)
    (hrest : ∀ c, (Text.slice t.document.text n
      (t.document.endOf (t.document.lineNumber n))).head? = some c → isBlank c = false) :
    (∀ k, 1 ≤ k → (t.held k).answer = (t.held 1).answer) ∧
      (∀ k, 2 ≤ k → (t.held k).indent = (t.held 2).indent) ∧
      (0 < t.options.size → 0 < t.options.tabSize → t.options.size ≤ Text.Memory.limit →
        ∀ k, ∃ x, (t.held k).answer = .ok x) := by
  have hl := Language.lawful_of_mem_builtin hlang
  have hplace := place_take_drop hcaret hn
  have hu : t.document.text.take n ≠ [] := by
    refine List.ne_nil_of_length_pos ?_
    rw [List.length_take]
    omega
  have hr : (untilBreak (t.document.text.drop n)).head?.any isBlank = false := by
    rw [Document.slice_endOf hn] at hrest
    cases hhead : (untilBreak (t.document.text.drop n)).head? with
    | none => rfl
    | some c => exact hrest c hhead
  have hsteady := steady_pressed hl hr (Language.opensWithTwo_of_mem_builtin hlang) hu
  have hheld := exists_held_place t (t.document.text.take n) (t.document.text.drop n)
  rw [hplace] at hsteady hheld
  refine ⟨?_, ?_, ?_⟩
  · intro k hk
    obtain ⟨m, rfl⟩ := Nat.exists_eq_add_of_le' hk
    rw [answer_eq, answer_eq, held_succ, hsteady m]
    rfl
  · intro k hk
    obtain ⟨m, rfl⟩ := Nat.exists_eq_add_of_le' hk
    obtain ⟨v, hv⟩ := hheld 1
    have hpressed : t.pressed = t.place v (t.document.text.drop n) := hv
    rw [hpressed] at hsteady
    have hindent := hsteady.indent_held hl m
    rwa [← hpressed, ← held_succ, ← held_succ] at hindent
  · intro hsize htab hwidth k
    obtain ⟨v, hv⟩ := hheld k
    rw [hv]
    exact exists_answer hsize htab hwidth

omit [Text.Memory] in
/-- Behind a brace, each of the first two presses puts in one level more. -/
example :
    let _ := Text.Memory.kilobyte
    let t : Typing := { document := ⟨['{'], true⟩, caret := 1, language := .c }
    t.indent = [] ∧ (t.held 1).indent = [' ', ' ', ' ', ' '] ∧
      (t.held 2).indent = [' ', ' ', ' ', ' ', ' ', ' ', ' ', ' '] := by cbv

omit [Text.Memory] in
theorem held_settles_behind_brace :
    let _ := Text.Memory.kilobyte
    let t : Typing := { document := ⟨['{'], true⟩, caret := 1, language := .c }
    t.language ∈ Language.builtin ∧ t.caret = (1 : Nat) ∧ 1 ≤ t.document.text.length ∧
      (∀ c, (Text.slice t.document.text (1 : Nat)
        (t.document.endOf (t.document.lineNumber (1 : Nat)))).head? = some c → isBlank c = false) ∧
      (∀ k, 1 ≤ k → (t.held k).answer = (t.held 1).answer) ∧
      (∀ k, 2 ≤ k → (t.held k).indent = (t.held 2).indent) ∧
      ∀ k, ∃ x, (t.held k).answer = .ok x := by
  intro _ t
  have hlang : t.language ∈ Language.builtin := List.mem_cons_self
  have hrest : ∀ c, (Text.slice t.document.text (1 : Nat)
      (t.document.endOf (t.document.lineNumber (1 : Nat)))).head? = some c → isBlank c = false := by
    intro c hc
    cases hc
  obtain ⟨hanswer, hindent, hresult⟩ :=
    held_settles hlang (t := t) rfl (Nat.le_refl 1) (Nat.le_refl 1) hrest
  exact ⟨hlang, rfl, Nat.le_refl 1, hrest, hanswer, hindent,
    hresult (by decide) (by decide) (by decide)⟩

end Typing

end Enter

end SmartEnter
