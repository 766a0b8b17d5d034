/-
# Which texts are positions

A text names a position if it is the digits of a line, a colon, and the digits of a column, and both
numbers are from one (`Names`).  Such a text is read as that position, and every other one is
refused as an argument (`ReadsPlace`), unless digits stand in it of which no number can be made:
digits of no positional system, or too many of them.  Then reading ends with a problem that is none
of the argument (`readsPlace_iff`).

A position that was written is read again, if it can be written at all (`ofString_text_iff`).

What a text means is said without the reader here.  `Names` speaks of digits and of the number that
they write (`Writes`), in any positional system and with any number of leading zeros, and there is
no limit on the digits in it.  So a text may name a position that is never read, and it is one of
the two ways in which a text is not read as it should be; the other one is a text that names nothing
and is not refused.

Both come down to one condition on the text, which is the same as the one under which a problem with
a position is not reported (`NoPlace`).

Main statement: `place_is_read_iff`.
-/
import SmartEnter.Proofs.CommandLine.Values
import SmartEnter.Proofs.Decimal.Written

namespace SmartEnter.CommandLine

open Decimal (Writes)

variable {s before behind : List Char} {arg : String} {place : Place} {k : Int}

/-- The text is two numbers from one, in digits and with a colon between them.  No text names two
positions. -/
def Names (arg : String) (place : Place) : Prop :=
  ∃ (before behind : List Char) (line column : Nat), arg.toList = before ++ ':' :: behind ∧
    Writes before line ∧ Writes behind column ∧ 1 ≤ line ∧ 1 ≤ column ∧ place = ⟨line, column⟩

/-- The text is read as the position that it names, and refused as an argument if it names none.
The two fields leave nothing out, as every text does one or the other. -/
structure ReadsPlace (arg : String) : Prop where
  accepted : ∀ place, Place.ofString arg = .ok place ↔ Names arg place
  refused : (∀ place, ¬Names arg place) → ∃ cause, Place.ofString arg = .error (.argument cause) ∧
    (cause = .noPosition arg ∨ cause = .zeroPosition arg)

/-! ## 1. Digits

A digit of a positional system is also a digit in the wider sense, so what writes a number passes
the question about digits. -/

theorem isDigits_of_writes {n : Nat} (h : Writes s n) : isDigits s = true :=
  isDigits_iff.2 ⟨h.ne_nil, h.isDigit⟩

/-- Digits are read as the number they write, if they are not too many. -/
theorem number_eq_ok_iff_writes (h : isDigits s = true) :
    number s = .ok k ↔ ∃ n : Nat, k = n ∧ Writes s n ∧ s.length ≤ Decimal.digitLimit := by
  obtain ⟨hs, hdigits⟩ := isDigits_iff.1 h
  rw [number_eq_ok_iff, Decimal.integer_eq_ok_iff_writes hs hdigits]

/-- If digits make up a number, they write it.  There may be several ways to write a number, since
zeros may stand in front and digits may be of any script. -/
theorem number_of_writes {n : Nat} (h : Writes s n) (hno : ¬NoNumber s) : number s = .ok n := by
  obtain ⟨k, hk⟩ := (exists_number_iff (isDigits_of_writes h)).2 hno
  obtain ⟨m, rfl, hm, -⟩ := (number_eq_ok_iff_writes (isDigits_of_writes h)).1 hk
  rw [hk, ← hm.value, h.value]

/-- Digits that make up no number end the reading, with the problem that they themselves come to. -/
theorem exists_number_error (h : NoNumber s) : ∃ failure, number s = .error (.integer failure) := by
  cases hi : Decimal.integer s with
  | ok n => exact absurd h ((exists_number_iff h.digits).1 ⟨n, number_eq_ok_iff.2 hi⟩)
  | error failure => exact ⟨failure, by rw [number, hi]; rfl⟩

/-! ## 2. Positions

Both directions of the reader, each with the condition on the digits where it is needed. -/

/-- A position that is read is the one that the text names.  This is half of the main statement; the
other half is that nothing else is read. -/
theorem names_of_ofString (h : Place.ofString arg = .ok place) : Names arg place := by
  obtain ⟨before, behind, hsplit, hline, hpos, hcolumn, hpos'⟩ := Place.ofString_eq_ok_iff.1 h
  obtain ⟨line, hline, hbefore, -⟩ := (number_eq_ok_iff_writes hsplit.before_digits).1 hline
  obtain ⟨column, hcolumn, hbehind, -⟩ := (number_eq_ok_iff_writes hsplit.behind_digits).1 hcolumn
  refine ⟨before, behind, line, column, hsplit.toList_eq, hbefore, hbehind, by omega, by omega, ?_⟩
  rw [← hline, ← hcolumn]

/-- A text that names a position is read as the position, unless its digits make up no number. -/
theorem ofString_of_names (hno : ¬NoPlace arg) (h : Names arg place) :
    Place.ofString arg = .ok place := by
  obtain ⟨before, behind, line, column, harg, hbefore, hbehind, hpos, hpos', rfl⟩ := h
  have hsplit : Split arg before behind :=
    ⟨harg, isDigits_of_writes hbefore, isDigits_of_writes hbehind⟩
  have hline : number before = .ok line :=
    number_of_writes hbefore fun hn => hno ⟨_, _, hsplit, .inl hn⟩
  have hcolumn : number behind = .ok column :=
    number_of_writes hbehind fun hn => hno ⟨_, _, hsplit, .inr ⟨⟨line, hline, by omega⟩, hn⟩⟩
  exact Place.ofString_eq_ok_iff.2
    ⟨before, behind, hsplit, hline, Int.ofNat_le.2 hpos, hcolumn, Int.ofNat_le.2 hpos'⟩

/-- A position that is not read is refused as an argument, unless its digits make up no number.  The
cause is the form of the text, or one of its numbers that is zero. -/
theorem refused_of_error (hno : ¬NoPlace arg) (h : ∀ place, Place.ofString arg ≠ .ok place) :
    ∃ cause, Place.ofString arg = .error (.argument cause) ∧
      (cause = .noPosition arg ∨ cause = .zeroPosition arg) := by
  by_cases hsplit : ∃ before behind, Split arg before behind
  · obtain ⟨before, behind, hsplit⟩ := hsplit
    have hbefore : ¬NoNumber before := fun hn => hno ⟨_, _, hsplit, .inl hn⟩
    obtain ⟨line, hline⟩ := (exists_number_iff hsplit.before_digits).2 hbefore
    rw [hsplit.ofString_eq, hline] at h ⊢
    dsimp only [bind, Except.bind] at h ⊢
    -- the column is not read if the line is zero, so its digits may be any then
    by_cases hpos : line < 1
    · rw [if_pos hpos]
      exact ⟨_, rfl, .inr rfl⟩
    rw [if_neg hpos] at h ⊢
    have hbehind : ¬NoNumber behind := fun hn =>
      hno ⟨_, _, hsplit, .inr ⟨⟨line, hline, Int.not_lt.1 hpos⟩, hn⟩⟩
    obtain ⟨column, hcolumn⟩ := (exists_number_iff hsplit.behind_digits).2 hbehind
    rw [hcolumn] at h ⊢
    dsimp only at h ⊢
    by_cases hpos' : column < 1
    · rw [if_pos hpos']
      exact ⟨_, rfl, .inr rfl⟩
    · rw [if_neg hpos'] at h
      exact absurd rfl (h _)
  · exact ⟨_, ofString_of_not_split fun u v huv => hsplit ⟨u, v, huv⟩, .inl rfl⟩

/-- Digits that make up no number end the reading of a position, too. -/
theorem exists_integer_error (h : NoPlace arg) :
    ∃ failure, Place.ofString arg = .error (.integer failure) := by
  obtain ⟨before, behind, hsplit, hbefore | ⟨⟨line, hline, hpos⟩, hbehind⟩⟩ := h
  · obtain ⟨failure, hf⟩ := exists_number_error hbefore
    exact ⟨failure, by rw [hsplit.ofString_eq, hf]; rfl⟩
  · obtain ⟨failure, hf⟩ := exists_number_error hbehind
    refine ⟨failure, ?_⟩
    rw [hsplit.ofString_eq, hline, hf]
    dsimp only [bind, Except.bind]
    rw [if_neg (Int.not_lt.2 hpos)]

/-- **A text is read as it should be** exactly if its digits make up numbers. -/
theorem readsPlace_iff : ReadsPlace arg ↔ ¬NoPlace arg := by
  constructor
  · intro h hno
    obtain ⟨failure, hf⟩ := exists_integer_error hno
    by_cases hnames : ∃ place, Names arg place
    · obtain ⟨place, hplace⟩ := hnames
      rw [(h.accepted place).2 hplace] at hf
      cases hf
    · obtain ⟨cause, hcause, -⟩ := h.refused (not_exists.1 hnames)
      rw [hcause] at hf
      cases hf
  · intro hno
    refine ⟨fun place => ⟨names_of_ofString, ofString_of_names hno⟩, fun hnames => ?_⟩
    exact refused_of_error hno fun place hplace => hnames place (names_of_ofString hplace)

/-! ## 3. Positions that were written

The text of a number has its decimal digits, without leading zeros, so it is read as the number if
there are not too many of them. -/

theorem toList_text (line column : Nat) : (Place.text ⟨line, column⟩).toList =
    Nat.toDigits 10 line ++ ':' :: Nat.toDigits 10 column := by
  rw [Place.text, String.toList_append, String.toList_append, Decimal.toList_toString,
    Decimal.toList_toString, List.append_assoc]
  rfl

/-- The decimal text of a number is read as the number if the number can be written. -/
theorem number_toDigits {n : Nat} (h : Decimal.IsWritable n) :
    number (Nat.toDigits 10 n) = .ok (n : Int) := by
  have hwrites := Decimal.writes_toDigits n
  exact (number_eq_ok_iff_writes (isDigits_of_writes hwrites)).2
    ⟨n, rfl, hwrites, (Decimal.length_toDigits_le_iff n).2 h⟩

/-- **A position that was written is read again**, if both of its numbers can be written.  A number
that cannot be written has a text all the same, and it is too long to be read. -/
theorem ofString_text_iff (hline : 1 ≤ place.line) (hcolumn : 1 ≤ place.column) :
    Place.ofString place.text = .ok place ↔ place.IsWritable := by
  obtain ⟨line, column⟩ := place
  obtain ⟨line, rfl⟩ := Int.eq_ofNat_of_zero_le (Int.le_trans Int.one_nonneg hline)
  obtain ⟨column, rfl⟩ := Int.eq_ofNat_of_zero_le (Int.le_trans Int.one_nonneg hcolumn)
  refine ⟨Place.isWritable_of_ofString, fun ⟨hbefore, hbehind⟩ => ?_⟩
  have hsplit : Split (Place.text ⟨line, column⟩) _ _ :=
    ⟨toList_text line column, isDigits_of_writes (Decimal.writes_toDigits line),
      isDigits_of_writes (Decimal.writes_toDigits column)⟩
  exact Place.ofString_eq_ok_iff.2
    ⟨_, _, hsplit, number_toDigits hbefore, hline, number_toDigits hbehind, hcolumn⟩

/-- **Which positions are read.**  A text is read as the position that it names, or refused as an
argument if it names none, exactly if its digits make up numbers; if they do not, the problem that
ends the reading is about the number.  A position that was written is read again exactly if both of
its numbers can be written. -/
theorem place_is_read_iff (arg : String) :
    (ReadsPlace arg ↔ ¬NoPlace arg) ∧
      (NoPlace arg → ∃ failure, Place.ofString arg = .error (.integer failure)) ∧
      ∀ place : Place, 1 ≤ place.line → 1 ≤ place.column →
        (Place.ofString place.text = .ok place ↔ place.IsWritable) :=
  ⟨readsPlace_iff, exists_integer_error, fun _ => ofString_text_iff⟩

/-- A line with a leading zero is read, and written again without it. -/
theorem place_is_read_iff_with_leading_zero :
    ¬NoPlace "03:70" ∧ ReadsPlace "03:70" ∧ Names "03:70" ⟨3, 70⟩ ∧
      Place.text ⟨3, 70⟩ = "3:70" ∧ Place.IsWritable ⟨3, 70⟩ ∧
      Place.ofString "3:70" = .ok ⟨3, 70⟩ := by
  obtain ⟨hiff, hspoilt, hwritten⟩ := place_is_read_iff "03:70"
  have hread : Place.ofString "03:70" = .ok ⟨3, 70⟩ := by rfl
  have hno : ¬NoPlace "03:70" := fun hno => by
    obtain ⟨failure, hf⟩ := hspoilt hno
    rw [hread] at hf
    cases hf
  have hreads := hiff.2 hno
  have htext : Place.text ⟨3, 70⟩ = "3:70" := by decide
  have hw : Place.IsWritable ⟨3, 70⟩ := Place.isWritable_of_ofString hread
  have hagain := (hwritten ⟨3, 70⟩ (by decide) (by decide)).2 hw
  rw [htext] at hagain
  exact ⟨hno, hreads, (hreads.accepted _).1 hread, htext, hw, hagain⟩

/-- **A superscript is a digit of which no number is made**: it is neither read as a column nor
refused as an argument. -/
theorem not_readsPlace_superscript :
    (∃ failure, Place.ofString "1:²" = .error (.integer failure)) ∧ ¬ReadsPlace "1:²" := by
  have hread : Place.ofString "1:²" = .error (.integer (.malformed ['²'])) := by rfl
  refine ⟨⟨_, hread⟩, fun h => ?_⟩
  have hnone : ∀ place, ¬Names "1:²" place := fun place hplace => by
    rw [(h.accepted place).2 hplace] at hread
    cases hread
  obtain ⟨cause, hcause, -⟩ := h.refused hnone
  rw [hcause] at hread
  cases hread

end SmartEnter.CommandLine
