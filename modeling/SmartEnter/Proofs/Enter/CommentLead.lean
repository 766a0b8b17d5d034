/-
# Where the comment opener is put in

Enter puts in the opener of a line comment when it splits one, so that the text that moves to the
new line stays a comment.  The opener should therefore be put in inside a comment only.  It is, with
one exception: on the line below a comment, with nothing but blanks before the caret, the comment is
found over the line break, and what the line has behind the caret becomes a comment
(`lead_insideComment_iff`).  `lead_below_comment` is such a press.

The opener is put in by one decision only, so the question is when that decision is taken.  It is
taken when a comment is found before the caret and the line goes on behind it, and a comment is
found in two cases (`comment_isSome_iff`): around the caret, and above it.  The second case is the
exception, and it is a real one, since nothing in the decision tells the two apart.

That the opener is put in is read off the text of the insertion.  No other insertion has the opener
in it, as they are line feeds and blanks, and the opener has other characters.
-/
import SmartEnter.Proofs.Enter.FoundComment

namespace SmartEnter.Enter

open Text (isBlank)

variable {language : Language} {formatters : Formatters} {options : Indent.Options} {e : Editor}
  {n : Nat}

/-- A line feed and blanks do not have the comment opener among them, because the opener starts with
neither. -/
theorem not_lead_isInfix_of_blanks (hl : language.Lawful) {indent : List Char}
    (hb : ∀ c ∈ indent, isBlank c = true) : ¬language.commentLead <:+: '\n' :: indent := by
  intro h
  obtain ⟨m, hm, hp⟩ := Lexis.startsLineComment_iff.1 hl.lead_starts
  have hhead := hl.marker_head m hm
  cases m with
  | nil => cases hhead
  | cons c m =>
    have hc : isBlank c = false := by simpa using hhead
    have hlead : c ∈ language.commentLead := hp.subset List.mem_cons_self
    rcases List.mem_cons.1 (h.subset hlead) with rfl | hi
    · exact hl.lead_inLine.1 hlead
    · rw [hb c hi] at hc
      cases hc

/-- A comment is split exactly if the editor accepts the key, the line goes on behind the caret, and
the caret is inside a comment or on the line below one. -/
theorem splitComment_iff [Text.Memory] (hl : language.Lawful) (hcaret : e.caret = n) (hpos : 0 < n)
    (hle : n ≤ e.document.text.length) :
    (∃ indent, Decision.of language formatters options e =
        .ok (.splitComment indent language.commentLead)) ↔
      e.Accepts language ∧ HasRest e.document n ∧
        (InsideComment language e.document n ∨ BelowComment language e.document n) := by
  have hrest : (Site.of language e.document e.caret).behind.any (!isBlank ·) = true ↔
      HasRest e.document n := by
    rw [hcaret, List.any_eq_true]
    simp only [Bool.not_eq_true']
    exact Iff.rfl
  constructor
  · rintro ⟨indent, h⟩
    obtain ⟨hacc, ⟨hc, hr⟩, -, -⟩ := Decision.of_eq_splitComment_iff.1 h
    rw [hrest] at hr
    rw [hcaret] at hc
    exact ⟨hacc, hr, (comment_isSome_iff hl hpos hle hr).1 hc⟩
  · rintro ⟨hacc, hr, h⟩
    have hc := (comment_isSome_iff hl hpos hle hr).2 h
    rw [← hcaret] at hc
    exact ⟨_, Decision.of_eq_splitComment_iff.2 ⟨hacc, ⟨hc, hrest.2 hr⟩, rfl, rfl⟩⟩

/-- **The comment opener is put in inside a comment only, except below a comment.**  Every press
that puts in the opener is inside a line comment, unless the line has only blanks before the caret
and more than blanks behind it, and a comment ends the line above. -/
theorem lead_insideComment_iff [Text.Memory] {language : Language}
    (hl : language ∈ Language.builtin)
    {formatters : Formatters} {options : Indent.Options} {e : Editor} {n : Nat}
    (hcaret : e.caret = n) (hpos : 1 ≤ n) (hle : n ≤ e.document.text.length) :
    (∀ r i, press language formatters options (some e) = .ok r → r.insertion = some i →
        language.commentLead <:+: i.text → InsideComment language e.document n) ↔
      ¬(e.Accepts language ∧ HasRest e.document n ∧ BelowComment language e.document n) := by
  have hlawful := Language.lawful_of_mem_builtin hl
  constructor
  · rintro h ⟨hacc, hrest, hbelow⟩
    obtain ⟨indent, hd⟩ : ∃ indent, Decision.of language formatters options e =
        .ok (.splitComment indent language.commentLead) :=
      (splitComment_iff hlawful hcaret hpos hle).2 ⟨hacc, hrest, .inr hbelow⟩
    have hinside := h _ _ (press_eq_ok_iff.2 ⟨_, hd, rfl⟩) rfl
      (List.suffix_append ('\n' :: indent) _).isInfix
    exact not_insideComment_of_belowComment hle hbelow hinside
  · intro h r i hr hi hlead
    obtain ⟨decision, hd, rfl⟩ := press_eq_ok_iff.1 hr
    obtain ⟨htext, -⟩ := Decision.inserted_of_insertion hi
    rcases Decision.inserted_cases hd htext with ⟨indent, hb, he⟩ | ⟨indent, -, rfl⟩
    · rw [he] at hlead
      exact absurd hlead (not_lead_isInfix_of_blanks hlawful hb)
    · obtain ⟨hacc, hrest, hinside | hbelow⟩ := (splitComment_iff hlawful hcaret hpos hle).1 ⟨_, hd⟩
      · exact hinside
      · exact absurd ⟨hacc, hrest, hbelow⟩ h

/-- The statement at the start of the line below a comment, where the opener is put in although the
caret is in no comment. -/
theorem lead_insideComment_iff_at_line_start :
    let _ := Text.Memory.kilobyte
    Language.c ∈ Language.builtin ∧ 1 ≤ 4 ∧ 4 ≤ ['/', '/', 'a', '\n', 'b'].length ∧
      ((∀ r i, press .c [] {} (some ⟨⟨['/', '/', 'a', '\n', 'b'], true⟩, 4, ⟨["c"], false, 4⟩⟩) =
            .ok r → r.insertion = some i → Language.c.commentLead <:+: i.text →
          InsideComment .c ⟨['/', '/', 'a', '\n', 'b'], true⟩ 4) ↔
        ¬((⟨⟨['/', '/', 'a', '\n', 'b'], true⟩, 4, ⟨["c"], false, 4⟩⟩ : Editor).Accepts .c ∧
          HasRest ⟨['/', '/', 'a', '\n', 'b'], true⟩ 4 ∧
          BelowComment .c ⟨['/', '/', 'a', '\n', 'b'], true⟩ 4)) := by
  intro _
  exact ⟨by decide, by decide, by decide,
    lead_insideComment_iff (by decide) rfl (by decide) (by decide)⟩

/-- **Code below a comment becomes a comment.**  The opener is put in before the code of a line, and
the caret is inside no comment. -/
theorem lead_below_comment :
    let _ := Text.Memory.kilobyte
    press .c [] {} (some ⟨⟨['/', '/', 'a', '\n', 'b'], true⟩, 4, ⟨["c"], false, 4⟩⟩) =
        .ok ⟨.stop, some ⟨4, '\n' :: Language.c.commentLead⟩, some ⟨2, 1⟩⟩ ∧
      ¬InsideComment .c ⟨['/', '/', 'a', '\n', 'b'], true⟩ 4 := by
  intro _
  have hlexemes : Language.c.lexis.lexemes ['/', '/', 'a', '\n', 'b'] =
      [⟨.lineComment, ['/', '/', 'a']⟩, ⟨.newline, ['\n']⟩, ⟨.identifier, ['b']⟩] := by cbv
  constructor
  · refine press_eq_ok_iff.2 ⟨.splitComment [] Language.c.commentLead, ?_, rfl⟩
    rw [Decision.of, Site.of, Language.tokens, Lexis.tokens, hlexemes]
    decide
  · rw [InsideComment, Language.tokens, Lexis.tokens, hlexemes]
    decide

end SmartEnter.Enter
