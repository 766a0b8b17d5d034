/-
# When a press has no result

A level is a run of spaces or tabs, and its width is any positive number.  A run that is too long
for a text cannot be put in.  With positive sizes, this is all that can go wrong: there is no
decision exactly if the editor accepts the key, the token before the caret opens a block, and one
more level is too wide (`Decision.of_eq_error_iff`).

How long a text may be is left open (`Text.Memory`).  So the condition speaks of the failure that
the level itself gives, and only one consequence names the limit: a level that fails is wider than
any text may be.
-/
import SmartEnter.Proofs.Enter.Alike

namespace SmartEnter.Enter

variable {language : Language} {formatters : Formatters} {options : Indent.Options} {e : Editor}

variable [Text.Memory]

/-- A level has to be put in, and it is too wide for a text: the editor accepts the key, the token
before the caret opens a block, and one more level cannot be written. -/
structure Editor.TooWide (e : Editor) (language : Language) (formatters : Formatters)
    (options : Indent.Options) (w : Text.RepeatFailure) : Prop where
  accepts : e.Accepts language
  opener : Row.opener.Applies language formatters (Site.of language e.document e.caret)
  deepen : Indent.deepen (Site.of language e.document e.caret).indent e.document options =
    .error (.width w)
  wide : Text.Memory.limit < options.size

/-- A decision that cannot be made leaves no result, and the failure of the press is that of the
decision. -/
theorem Decision.of_eq_error_iff_press {f : Indent.Failure} :
    Decision.of language formatters options e = .error f ↔
      press language formatters options (some e) = .error f := by
  constructor
  · exact press_eq_error
  · intro h
    cases hd : Decision.of language formatters options e with
    | error g =>
      rw [press_eq_error hd] at h
      cases h
      rfl
    | ok decision =>
      rw [press_eq_ok_iff.2 ⟨decision, hd, rfl⟩] at h
      cases h

/-- **There is no decision exactly if a level is too wide.**  The failure says whether the number of
characters was no count of a list or more than the memory holds. -/
theorem Decision.of_eq_error_iff {f : Indent.Failure} (hpos : options.Positive) :
    Decision.of language formatters options e = .error f ↔
      ∃ w, f = .width w ∧ e.TooWide language formatters options w := by
  rw [Decision.of_eq_error_iff_press]
  constructor
  · intro h
    rcases e.accepts_or_refuses language with he | he
    swap
    · rw [he.press_eq] at h
      cases h
    obtain ⟨row, hrow⟩ :=
      Row.exists_applies language formatters (Site.of language e.document e.caret)
    rw [hrow.press_eq he, Row.result_eq] at h
    cases hinserted : row.inserted language options e.document
        (Site.of language e.document e.caret) with
    | ok text =>
      rw [hinserted] at h
      cases h
    | error g =>
      rw [hinserted] at h
      cases h
      obtain ⟨rfl, hdeepen⟩ := Row.eq_opener hinserted
      obtain ⟨⟨w, rfl⟩, hwide⟩ := Indent.width_of_deepen_eq_error hpos hdeepen
      exact ⟨w, rfl, he, hrow, hdeepen, hwide⟩
  · rintro ⟨w, rfl, h⟩
    rw [h.opener.press_eq h.accepts, Row.result_eq, Row.inserted, h.deepen]
    rfl

end SmartEnter.Enter
