/-
# What a press of Enter can come to

An editor accepts Enter for a language if it has text of the language, may be edited, and the caret
is behind the start (`Editor.Accepts`).  Only then is anything put in.  What is put in is a line
feed and an indent of blanks, with a comment opener behind it exactly if a comment is split
(`Decision.inserted_cases`, `Decision.of_eq_splitComment_iff`).

`press_eq_ok_iff` ties the result of a press to the decision: the text is put in at the caret, and
nothing else in the document changes (`Decision.apply_text`).

These are the facts that all other modules about presses start from.  They say what a press can come
to without saying which of it happens; that is a matter of the text around the caret, and the indent
and the level are blanks whatever the text may be.  A statement about the text that is put in is
then proved for blanks in general, and for the opener of a comment where there is one.
-/
import SmartEnter.Enter.Decision
import SmartEnter.Proofs.Indent.Level

namespace SmartEnter

open Text (isBlank)

namespace Indent

/-- One level is made of blanks, because it is nothing but one of the two repeated. -/
theorem isBlank_of_level [Text.Memory] {tabs : Bool} {options : Options} {s : List Char}
    (h : level tabs options = .ok s) : ∀ c ∈ s, isBlank c = true := by
  intro c hc
  rw [eq_of_mem_level h c hc]
  exact isBlank_levelChar tabs

/-- An indent with one more level is made of blanks if the indent is. -/
theorem isBlank_of_deepen [Text.Memory] {old new : List Char} {d : Document} {options : Options}
    (hold : ∀ c ∈ old, isBlank c = true) (h : deepen old d options = .ok new) :
    ∀ c ∈ new, isBlank c = true := by
  obtain ⟨s, hs, rfl⟩ := exists_level_of_deepen h
  intro c hc
  exact (List.mem_append.1 hc).elim (hold c) (isBlank_of_level hs c)

end Indent

namespace Enter

variable {language : Language} {formatters : Formatters} {options : Indent.Options} {e : Editor}
  {decision : Decision} {r : Result} {text : List Char}

/-! ## 1. Editors that accept the key

The guards of the decision, taken together.  An editor accepts the key if none of them holds. -/

/-- The editor has text of the language, may be edited, and the caret is behind the start. -/
structure Editor.Accepts (e : Editor) (language : Language) : Prop where
  language_mem : language.id ∈ e.session.languages
  not_viewer : e.session.viewer = false
  writable : e.document.writable = true
  caret_pos : 0 < e.caret

theorem Editor.Accepts.of_eq [Text.Memory] (h : e.Accepts language) :
    Decision.of language formatters options e = Decision.ofSite language formatters options
      e.document (Site.of language e.document e.caret) := by
  rw [Decision.of, if_neg (not_not_intro h.language_mem), if_neg (by rw [h.not_viewer]; decide),
    if_neg (by rw [h.writable]; decide), if_neg (Int.not_le.2 h.caret_pos)]

/-- An editor that puts anything in accepts the key, since each guard leaves it to the next
handler. -/
theorem accepts_of_inserted [Text.Memory]
    (h : Decision.of language formatters options e = .ok decision)
    (hi : decision.inserted = some text) : e.Accepts language := by
  unfold Decision.of at h
  split at h
  · cases h
    cases hi
  next hlang =>
  split at h
  · cases h
    cases hi
  next hviewer =>
  split at h
  · cases h
    cases hi
  next hwritable =>
  split at h
  · cases h
    cases hi
  next hcaret =>
  exact ⟨Decidable.not_not.1 hlang, Bool.not_eq_true _ ▸ hviewer, by simpa using hwritable,
    Int.not_le.1 hcaret⟩

/-! ## 2. What is put in

By cases on the decision.  All that is needed of the site is that its indent is made of blanks,
which is how it was taken from the line. -/

theorem isBlank_indent (language : Language) (d : Document) (caret : Int) :
    ∀ c ∈ (Site.of language d caret).indent, isBlank c = true :=
  List.all_eq_true.1 List.all_takeWhile

/-- A comment is split exactly if one was found and the line goes on behind the caret. -/
theorem Decision.ofSite_eq_splitComment_iff [Text.Memory] {d : Document} {site : Site}
    {indent lead : List Char} :
    Decision.ofSite language formatters options d site = .ok (.splitComment indent lead) ↔
      ((site.comment language).isSome ∧ site.behind.any (!isBlank ·)) ∧
        site.indent = indent ∧ language.commentLead = lead := by
  unfold Decision.ofSite
  split
  · next hc =>
    rw [Except.ok.injEq, Decision.splitComment.injEq]
    exact (and_iff_right hc).symm
  · next hc =>
    refine ⟨fun h => ?_, fun h => absurd h.1 hc⟩
    split at h
    · cases h
    split at h
    · cases h
    split at h
    · cases hd : Indent.deepen site.indent d options with
      | error f => rw [hd] at h; cases h
      | ok s => rw [hd] at h; cases h
    · cases h

/-- A comment is split exactly if the editor accepts the key, a comment is found before the caret,
and the line goes on behind the caret.  No other decision puts the opener of a comment in. -/
theorem Decision.of_eq_splitComment_iff [Text.Memory] {indent lead : List Char} :
    Decision.of language formatters options e = .ok (.splitComment indent lead) ↔
      e.Accepts language ∧
        (((Site.of language e.document e.caret).comment language).isSome ∧
          (Site.of language e.document e.caret).behind.any (!isBlank ·)) ∧
        (Site.of language e.document e.caret).indent = indent ∧ language.commentLead = lead := by
  constructor
  · intro h
    have hacc := accepts_of_inserted h rfl
    rw [hacc.of_eq] at h
    exact ⟨hacc, Decision.ofSite_eq_splitComment_iff.1 h⟩
  · rintro ⟨hacc, h⟩
    rw [hacc.of_eq]
    exact Decision.ofSite_eq_splitComment_iff.2 h

/-- **What is put in** is a line feed and blanks, unless a comment is split. -/
theorem Decision.inserted_cases [Text.Memory]
    (h : Decision.of language formatters options e = .ok decision)
    (hi : decision.inserted = some text) :
    (∃ indent, (∀ c ∈ indent, isBlank c = true) ∧ text = '\n' :: indent) ∨
      ∃ indent, (∀ c ∈ indent, isBlank c = true) ∧
        decision = .splitComment indent language.commentLead := by
  have hblank := isBlank_indent language e.document e.caret
  rw [(accepts_of_inserted h hi).of_eq, Decision.ofSite] at h
  split at h
  · cases h
    exact .inr ⟨_, hblank, rfl⟩
  refine .inl ?_
  split at h
  · cases h
    exact ⟨_, hblank, (Option.some.inj hi).symm⟩
  split at h
  · cases h
    cases hi
  split at h
  · cases hd : Indent.deepen (Site.of language e.document e.caret).indent e.document options with
    | error f => rw [hd] at h; cases h
    | ok indent =>
      rw [hd] at h
      cases h
      exact ⟨indent, Indent.isBlank_of_deepen hblank hd, (Option.some.inj hi).symm⟩
  · cases h
    exact ⟨_, hblank, (Option.some.inj hi).symm⟩

/-- Behind the line feed there are blanks, and perhaps a comment opener behind them. -/
theorem Decision.exists_behind [Text.Memory]
    (h : Decision.of language formatters options e = .ok decision)
    (hi : decision.inserted = some text) :
    ∃ s, text = '\n' :: s ∧
      ∃ b, (∀ c ∈ b, isBlank c = true) ∧ (s = b ∨ s = b ++ language.commentLead) := by
  rcases Decision.inserted_cases h hi with ⟨b, hb, rfl⟩ | ⟨b, hb, rfl⟩
  · exact ⟨b, rfl, b, hb, .inl rfl⟩
  · exact ⟨_, (Option.some.inj hi).symm, b, hb, .inr rfl⟩

/-! ## 3. The result

A result is a function of its decision, so what is known of decisions is known of results. -/

/-- A press in an editor comes to the result of its decision, so statements about presses may be
read as statements about decisions. -/
theorem press_eq_ok_iff [Text.Memory] : press language formatters options (some e) = .ok r ↔
    ∃ decision, Decision.of language formatters options e = .ok decision ∧
      decision.result e = r := by
  have hpress : press language formatters options (some e) =
      (·.result e) <$> Decision.of language formatters options e := rfl
  rw [hpress]
  cases Decision.of language formatters options e with
  | error f =>
    refine ⟨nofun, ?_⟩
    rintro ⟨_, h, -⟩
    cases h
  | ok decision =>
    constructor
    · intro h
      exact ⟨decision, rfl, Except.ok.inj h⟩
    · rintro ⟨_, h, rfl⟩
      rw [Except.ok.inj h]
      rfl

theorem press_eq_error [Text.Memory] {failure : Indent.Failure}
    (h : Decision.of language formatters options e = .error failure) :
    press language formatters options (some e) = .error failure := by
  have hpress : press language formatters options (some e) =
      (·.result e) <$> Decision.of language formatters options e := rfl
  rw [hpress, h]
  rfl

theorem Decision.result_of_not_inserted (hi : decision.inserted = none) :
    decision.result e = .deferred := by
  rw [Decision.result, hi]

/-- The key is used up by what is put in, and it is put in at the caret. -/
theorem Decision.result_of_inserted (hi : decision.inserted = some text) :
    (decision.result e).outcome = .stop ∧ (decision.result e).insertion = some ⟨e.caret, text⟩ := by
  rw [Decision.result, hi]
  exact ⟨rfl, rfl⟩

theorem Decision.inserted_of_insertion {i : Insertion}
    (h : (decision.result e).insertion = some i) :
    decision.inserted = some i.text ∧ i.offset = e.caret := by
  rw [Decision.result] at h
  split at h
  · cases h
  · next hi =>
    cases h
    exact ⟨hi, rfl⟩

/-- The document after a press has the text at the caret, and everything else as it was. -/
theorem Decision.apply_text {n : Nat} (hi : decision.inserted = some text) (he : e.caret = n)
    (hn : n ≤ e.document.text.length) :
    ((decision.result e).apply e.document).text =
      e.document.text.take n ++ text ++ e.document.text.drop n := by
  obtain ⟨ho, hins⟩ := Decision.result_of_inserted (e := e) hi
  rw [Result.apply, ho, hins]
  dsimp only
  rw [Document.insert, he]
  exact Text.insertAt_natCast hn text

end Enter

end SmartEnter
