/-
# Positions and log levels that are read

A position is a line and a column, both made up of digits (`Place.ofString_eq_ok_iff`), and what was
read can be written again (`Place.isWritable_of_ofString`).

A problem may be one that is reported or one that is not (`Unreported`).  Of positions and of log
levels, those problems are not reported that come of digits that make up no number (`NoNumber`):
digits of no positional system, or too many of them.

That property is stated of the text alone, without the reader of numbers: a character of it has no
value as a decimal digit, or the text is longer than the limit.  So it can be looked up in a text by
eye.  That the reader fails exactly then is the one fact about it that is used
(`exists_number_iff`), and it is used for lines, for columns and for log levels.

A position has two numbers, and the second one is looked at only if the first is one from one.  A
zero as the line is reported, whatever the column may be.
-/
import SmartEnter.CommandLine.Values
import SmartEnter.Proofs.Decimal.Numeral
import SmartEnter.Proofs.Style.Accepted

namespace SmartEnter.CommandLine

variable {α β : Type} {s before behind : List Char} {arg : String} {place : Place} {n : Int}

/-! ## 1. Problems that are not reported

Whether a problem is reported is a question about its kind.  For a computation in several steps it
is a question about the first step that fails, and `unreported_bind` is the law for that; every
stage of a run is taken apart with it. -/

/-- What was to be found out is not, for a problem that nobody is told of.  A computation that
succeeds is no such thing. -/
def Unreported [Style.Stack] (x : Except Problem α) : Prop := ∃ p, x = .error p ∧ p.report? = none

@[simp]
theorem unreported_error [Style.Stack] {p : Problem} :
    Unreported (.error p : Except Problem α) ↔ p.report? = none := by
  simp [Unreported]

@[simp]
theorem not_unreported_ok [Style.Stack] {x : α} : ¬Unreported (.ok x) := by
  simp [Unreported]

/-- **Of two steps, the second one is at fault only behind the first.**  A problem that is reported
by the first step hides whatever would have gone wrong in the second. -/
theorem unreported_bind [Style.Stack] {x : Except Problem α} {f : α → Except Problem β} :
    Unreported (x >>= f) ↔ Unreported x ∨ ∃ a, x = .ok a ∧ Unreported (f a) := by
  cases x with
  | error p => simp [Unreported, bind, Except.bind]
  | ok a => simp [Unreported, bind, Except.bind]

/-! ## 2. Numbers -/

theorem isDigits_iff : isDigits s = true ↔ s ≠ [] ∧ ∀ c ∈ s, Unicode.isDigit c = true := by
  simp [isDigits]

/-- Digits that make up no number: one of them belongs to no positional system, or they are too
many.  It is required that they are digits, because a text with anything else in it is refused
before a number is made of it. -/
structure NoNumber (s : List Char) : Prop where
  digits : isDigits s = true
  spoilt : (∃ c ∈ s, Unicode.decimalValue? c = none) ∨ Decimal.digitLimit < s.length

theorem number_eq_ok_iff : number s = .ok n ↔ Decimal.integer s = .ok n := by
  unfold number
  cases Decimal.integer s <;> simp [Except.mapError]

/-- **Digits are a number**, unless there is something wrong with them.  There are no signs,
underscores or blanks among digits, so nothing but the digits and their count can be at fault. -/
theorem exists_number_iff (h : isDigits s = true) : (∃ n, number s = .ok n) ↔ ¬NoNumber s := by
  obtain ⟨hs, hdigits⟩ := isDigits_iff.1 h
  simp only [number_eq_ok_iff]
  rw [Decimal.integer_eq_ok_iff hs hdigits]
  constructor
  · rintro ⟨hdecimal, hlength⟩ ⟨-, ⟨c, hc, hnone⟩ | hlong⟩
    · exact absurd (hdecimal c hc) (by simp [hnone])
    · exact absurd hlength (Nat.not_le.2 hlong)
  · intro hno
    refine ⟨fun c hc => ?_, Nat.not_lt.1 fun hlong => hno ⟨h, .inr hlong⟩⟩
    by_contra hnone
    exact hno ⟨h, .inl ⟨c, hc, Option.not_isSome_iff_eq_none.1 hnone⟩⟩

theorem isWritable_of_number (h : isDigits s = true) (hn : number s = .ok n) :
    Decimal.IsWritable n := by
  obtain ⟨hs, hdigits⟩ := isDigits_iff.1 h
  exact Decimal.isWritable_of_integer hs hdigits (number_eq_ok_iff.1 hn)

/-- What is wrong with digits is never reported. -/
theorem unreported_number_iff [Style.Stack] (h : isDigits s = true) : Unreported
    (number s) ↔ NoNumber s := by
  constructor
  · rintro ⟨p, hp, -⟩
    by_contra hno
    obtain ⟨n, hn⟩ := (exists_number_iff h).2 hno
    rw [hn] at hp
    cases hp
  · intro hno
    cases hn : number s with
    | ok n => exact absurd hno ((exists_number_iff h).1 ⟨n, hn⟩)
    | error p =>
      unfold number at hn
      cases hi : Decimal.integer s with
      | ok n => rw [hi] at hn; cases hn
      | error f =>
        rw [hi] at hn
        cases hn
        exact ⟨_, rfl, rfl⟩

/-! ## 3. Positions -/

/-- The text has the form of a position: digits, a colon, and digits.  Whether these make up numbers
is another question. -/
structure Split (arg : String) (before behind : List Char) : Prop where
  toList_eq : arg.toList = before ++ ':' :: behind
  before_digits : isDigits before = true
  behind_digits : isDigits behind = true

theorem ne_colon_of_isDigits (h : isDigits before = true) : ∀ c ∈ before, c ≠ ':' := by
  rintro c hc rfl
  exact absurd ((isDigits_iff.1 h).2 ':' hc) (by decide)

theorem eq_append_colon (h : (s.takeWhile (· ≠ ':')).length ≠ s.length) :
    s = s.takeWhile (· ≠ ':') ++ ':' :: (s.drop (s.takeWhile (· ≠ ':')).length).drop 1 := by
  induction s with
  | nil => exact absurd rfl h
  | cons c s ih =>
    by_cases hc : c = ':'
    · simp [hc]
    · rw [List.takeWhile_cons_of_pos (by simpa using hc)] at h ⊢
      rw [List.length_cons, List.drop_succ_cons, List.cons_append,
        ← ih fun he => h (congrArg (· + 1) he)]

/-- The digits are what stands before and behind the first colon, because no digit is a colon. -/
theorem Split.eq_parts (h : Split arg before behind) :
    arg.toList.takeWhile (· ≠ ':') = before ∧ (arg.toList.drop before.length).drop 1 = behind := by
  have hbefore : ∀ c ∈ before, decide (c ≠ ':') = true := fun c hc =>
    decide_eq_true (ne_colon_of_isDigits h.before_digits c hc)
  rw [h.toList_eq, List.takeWhile_append_of_pos hbefore]
  simp

/-- What a text of the form of a position comes to: the line is read and looked at, and only then
the column. -/
theorem Split.ofString_eq (h : Split arg before behind) :
    Place.ofString arg = number before >>= fun line =>
      if line < 1 then .error (.argument (.zeroPosition arg))
      else number behind >>= fun column =>
        if column < 1 then .error (.argument (.zeroPosition arg)) else .ok ⟨line, column⟩ := by
  obtain ⟨hbefore, hbehind⟩ := h.eq_parts
  have hlength : before.length ≠ arg.toList.length := by simp [h.toList_eq]
  unfold Place.ofString
  simp only [hbefore, hbehind, h.before_digits, h.behind_digits, hlength]
  refine bind_congr fun line => ?_
  split
  · rfl
  · refine bind_congr fun column => ?_
    split <;> rfl

/-- A text of another form is no position, and that is reported.  Only where the form is right can
digits be at fault. -/
theorem ofString_of_not_split (h : ∀ before behind, ¬Split arg before behind) :
    Place.ofString arg = .error (.argument (.noPosition arg)) := by
  unfold Place.ofString
  dsimp only
  rw [if_pos]
  · rfl
  · by_contra hform
    simp only [not_or, Bool.not_eq_true', Bool.not_eq_false] at hform
    obtain ⟨hlength, hbefore, hbehind⟩ := hform
    exact h _ _ ⟨eq_append_colon hlength, hbefore, hbehind⟩

/-- **A position is a line and a column from one**, both made up of digits. -/
theorem Place.ofString_eq_ok_iff : Place.ofString arg = .ok place ↔
    ∃ before behind, Split arg before behind ∧ number before = .ok place.line ∧ 1 ≤ place.line ∧
      number behind = .ok place.column ∧ 1 ≤ place.column := by
  constructor
  · intro h
    by_cases hsplit : ∃ before behind, Split arg before behind
    · obtain ⟨before, behind, hsplit⟩ := hsplit
      rw [hsplit.ofString_eq] at h
      obtain ⟨line, hline, h⟩ := exists_of_bind_eq_ok h
      split at h
      · cases h
      next hpos =>
      obtain ⟨column, hcolumn, h⟩ := exists_of_bind_eq_ok h
      split at h
      · cases h
      next hpos' =>
      cases h
      exact ⟨before, behind, hsplit, hline, Int.not_lt.1 hpos, hcolumn, Int.not_lt.1 hpos'⟩
    · rw [ofString_of_not_split fun u v huv => hsplit ⟨u, v, huv⟩] at h
      cases h
  · rintro ⟨before, behind, hsplit, hline, hpos, hcolumn, hpos'⟩
    rw [hsplit.ofString_eq, hline, hcolumn]
    simp [bind, Except.bind, Int.not_lt.2 hpos, Int.not_lt.2 hpos']

/-- **A position that was read can be written.**  A number with no more digits than can be read has
no more than can be written, leading zeros or not. -/
theorem Place.isWritable_of_ofString (h : Place.ofString arg = .ok place) : place.IsWritable := by
  obtain ⟨before, behind, hsplit, hline, -, hcolumn, -⟩ := Place.ofString_eq_ok_iff.1 h
  exact ⟨isWritable_of_number hsplit.before_digits hline,
    isWritable_of_number hsplit.behind_digits hcolumn⟩

/-- A position in which digits make up no number: those of the line, or, behind a line from one,
those of the column.  Behind a line that is zero the column is never read. -/
def NoPlace (arg : String) : Prop :=
  ∃ before behind, Split arg before behind ∧
    (NoNumber before ∨ (∃ n, number before = .ok n ∧ 1 ≤ n) ∧ NoNumber behind)

/-- What is wrong with a position is reported, unless its digits make up no number. -/
theorem unreported_ofString_iff [Style.Stack] : Unreported (Place.ofString arg) ↔ NoPlace arg := by
  by_cases hsplit : ∃ before behind, Split arg before behind
  · obtain ⟨before, behind, hsplit⟩ := hsplit
    have hone : NoPlace arg ↔
        NoNumber before ∨ (∃ n, number before = .ok n ∧ 1 ≤ n) ∧ NoNumber behind := by
      refine ⟨fun ⟨u, v, h, hno⟩ => ?_, fun hno => ⟨before, behind, hsplit, hno⟩⟩
      obtain ⟨rfl, rfl⟩ := h.eq_parts
      obtain ⟨rfl, rfl⟩ := hsplit.eq_parts
      exact hno
    rw [hone, hsplit.ofString_eq, unreported_bind, unreported_number_iff hsplit.before_digits]
    refine or_congr_right ⟨?_, ?_⟩
    · rintro ⟨line, hline, h⟩
      split at h
      · simp [Problem.report?] at h
      next hpos =>
      refine ⟨⟨line, hline, Int.not_lt.1 hpos⟩, ?_⟩
      rcases unreported_bind.1 h with h | ⟨column, -, h⟩
      · exact (unreported_number_iff hsplit.behind_digits).1 h
      · split at h <;> simp [Problem.report?] at h
    · rintro ⟨⟨line, hline, hpos⟩, hno⟩
      refine ⟨line, hline, ?_⟩
      rw [if_neg (Int.not_lt.2 hpos)]
      exact unreported_bind.2 (.inl ((unreported_number_iff hsplit.behind_digits).2 hno))
  · rw [ofString_of_not_split fun u v huv => hsplit ⟨u, v, huv⟩, unreported_error]
    refine iff_of_false (by simp [Problem.report?]) ?_
    rintro ⟨before, behind, h, -⟩
    exact hsplit ⟨before, behind, h⟩

/-! ## 4. Log levels -/

/-- The name of a level as it is looked up.  A superscript has no capital form, so putting the text
into capitals does not make it a number. -/
def levelName (given : String) : List Char :=
  Unicode.upper (Unicode.trim Unicode.isSpace given.toList)

/-- What is wrong with a log level is reported, unless its digits make up no number. -/
theorem unreported_logLevel_iff [Style.Stack] {environment : Option String} {arg : Option String} :
    Unreported (logLevel arg environment) ↔
      ∃ given, firstGiven arg environment = some given ∧ NoNumber (levelName given) := by
  unfold logLevel
  cases firstGiven arg environment with
  | none => simp
  | some given =>
    change Unreported (if isDigits (levelName given) then number (levelName given) else _) ↔ _
    simp only [Option.some.injEq, exists_eq_left']
    split
    · next h => exact unreported_number_iff h
    · next h =>
      refine iff_of_false ?_ fun hno => h hno.digits
      split <;> simp [Problem.report?]

end SmartEnter.CommandLine
