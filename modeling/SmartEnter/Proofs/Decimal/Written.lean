/-
# Numbers as they are written

Digits of positional systems, whichever ones, write a number (`Writes`), and whoever reads them
finds that number, unless they are too many (`integer_of_writes`).  Of all texts of digits there are
no others in which a number is found (`integer_eq_ok_iff_writes`).

The decimal text of a number writes it (`writes_toDigits`), and has no more digits than the limit
exactly if the number is one that can be written (`length_toDigits_le_iff`).

`Writes` has no limit in it: a text of any length writes a number, and the limit is an obstacle to
reading only.  That separates what a text means from what is done with it, and lets the limit be
counted in digits on one side and in powers of ten on the other.

The digits of ASCII are those of one positional system among many, so the decimal text of a number
is a case of the general statement as soon as the two ways to find the value of such a digit are
known to agree.
-/
import SmartEnter.Proofs.Decimal.Numeral

namespace SmartEnter

namespace Unicode

variable {c : Char} {ranges : List (Nat × Nat)} {r : Nat × Nat} {n : Nat}

/-- A code point of some range is found if the ranges ascend.  In a table that does not ascend the
search might stop before it gets there. -/
theorem inRanges_of_mem (hascend : ranges.Pairwise fun q r => q.1 ≤ r.1) (hr : r ∈ ranges)
    (hfrom : r.1 ≤ n) (hto : n ≤ r.2) : inRanges ranges n = true := by
  induction ranges with
  | nil => cases hr
  | cons q ranges ih =>
    obtain ⟨hq, hrest⟩ := List.pairwise_cons.1 hascend
    have hle : q.1 ≤ n := by
      rcases List.mem_cons.1 hr with rfl | hr
      · exact hfrom
      · exact Nat.le_trans (hq r hr) hfrom
    rw [inRanges, if_neg (Nat.not_lt.2 hle), Bool.or_eq_true, decide_eq_true_eq]
    rcases List.mem_cons.1 hr with rfl | hr
    · exact .inl hto
    · exact .inr (ih hrest hr)

/-- A digit of a positional system is a digit.  The two tables are compared, zero by zero. -/
theorem isDigit_of_decimalValue? (h : (decimalValue? c).isSome = true) : isDigit c = true := by
  -- the ten digits of a system lie in one range of the table
  have hascend : digitRanges.Pairwise fun q r => q.1 ≤ r.1 := by decide +kernel
  have hrows : ∀ z ∈ decimalZeros, ∃ r ∈ digitRanges, r.1 ≤ z ∧ z + 9 ≤ r.2 := by decide +kernel
  obtain ⟨d, hd⟩ := Option.isSome_iff_exists.1 h
  rw [decimalValue?, Option.map_eq_some_iff] at hd
  obtain ⟨z, hz, -⟩ := hd
  have hbetween := List.find?_some hz
  simp only [Bool.and_eq_true, decide_eq_true_eq] at hbetween
  obtain ⟨r, hr, hfrom, hto⟩ := hrows z (List.mem_of_find?_eq_some hz)
  exact inRanges_of_mem hascend hr (by omega) (by omega)

/-- The digits of ASCII have their usual values, and no other character of ASCII has one. -/
theorem decimalValue?_of_isDigit (h : c.isDigit = true) :
    decimalValue? c = some (c.toNat - '0'.toNat) := by
  have hrange : 48 ≤ c.toNat ∧ c.toNat ≤ 57 := by
    simpa [Char.isDigit, UInt32.le_iff_toNat_le] using h
  have hfind : decimalZeros.find? (fun z => z ≤ c.toNat && c.toNat < z + 10) = some 0x30 := by
    rw [decimalZeros, List.find?_cons_of_pos]
    simp only [Bool.and_eq_true, decide_eq_true_eq]
    omega
  rw [decimalValue?, hfind]
  rfl

end Unicode

namespace Decimal

open Unicode (decimalValue? isDigit)

variable {s : List Char} {n : Nat}

/-! ## 1. Digits that write a number

What a text of digits means, and that it is read as what it means. -/

/-- The text is made of digits of positional systems, and the number is their value.  The digits may
be of several systems, and zeros may stand in front. -/
structure Writes (s : List Char) (n : Nat) : Prop where
  ne_nil : s ≠ []
  decimal : ∀ c ∈ s, (decimalValue? c).isSome = true
  value : ofDigits (s.map digitValue) = n

theorem Writes.isDigit (h : Writes s n) : ∀ c ∈ s, isDigit c = true :=
  fun c hc => Unicode.isDigit_of_decimalValue? (h.decimal c hc)

/-- **Digits are read as the number they write**, unless there are too many of them. -/
theorem integer_of_writes (h : Writes s n) :
    integer s = if digitLimit < s.length then .error (.tooLong s.length) else .ok (n : Int) := by
  rw [integer_of_decimal h.ne_nil h.isDigit h.decimal, h.value]

/-- In a text of digits no number is found but the one that they write. -/
theorem integer_eq_ok_iff_writes {k : Int} (hs : s ≠ []) (h : ∀ c ∈ s, isDigit c = true) :
    integer s = .ok k ↔ ∃ n : Nat, k = n ∧ Writes s n ∧ s.length ≤ digitLimit := by
  constructor
  · intro hk
    obtain ⟨hdecimal, hlength⟩ := (integer_eq_ok_iff hs h).1 ⟨k, hk⟩
    have hwrites : Writes s (ofDigits (s.map digitValue)) := ⟨hs, hdecimal, rfl⟩
    rw [integer_of_writes hwrites, if_neg (Nat.not_lt.2 hlength)] at hk
    exact ⟨_, (Except.ok.inj hk).symm, hwrites, hlength⟩
  · rintro ⟨n, rfl, hwrites, hlength⟩
    rw [integer_of_writes hwrites, if_neg (Nat.not_lt.2 hlength)]

/-! ## 2. The decimal text of a number

The digits that the standard library finds for a number are digits of ASCII, and they write it. -/

/-- Digits of ASCII have the same value read one way and the other. -/
theorem ofDigits_map_digitValue (h : ∀ c ∈ s, c.isDigit = true) :
    ofDigits (s.map digitValue) = Nat.ofDigitChars 10 s 0 := by
  have hvalue : ∀ c ∈ s, digitValue c = c.toNat - '0'.toNat := fun c hc => by
    rw [digitValue, Unicode.decimalValue?_of_isDigit (h c hc), Option.getD_some]
  rw [List.map_congr_left hvalue, ofDigits, Nat.ofDigitChars, List.foldl_map]

/-- **The decimal text of a number writes it.** -/
theorem writes_toDigits (n : Nat) : Writes (Nat.toDigits 10 n) n := by
  have hdigit : ∀ c ∈ Nat.toDigits 10 n, c.isDigit = true := fun c hc =>
    Nat.isDigit_of_mem_toDigits (by decide) (by decide) hc
  refine ⟨Nat.toDigits_ne_nil, fun c hc => ?_, ?_⟩
  · rw [Unicode.decimalValue?_of_isDigit (hdigit c hc), Option.isSome_some]
  · rw [ofDigits_map_digitValue hdigit, Nat.ofDigitChars_toDigits (by decide) (by decide)]

theorem length_toDigits_le_iff (n : Nat) :
    (Nat.toDigits 10 n).length ≤ digitLimit ↔ IsWritable n := by
  have hlimit : 0 < digitLimit := by decide
  unfold IsWritable
  rw [Int.natAbs_natCast]
  generalize digitLimit = limit at hlimit ⊢
  exact Nat.length_toDigits_le_iff (by decide) hlimit

/-- A number from zero is shown as its decimal text. -/
theorem toList_toString (n : Nat) : (toString (n : Int)).toList = Nat.toDigits 10 n := by
  rw [Int.toString_eq_repr]
  exact Nat.toList_repr

end Decimal

end SmartEnter
