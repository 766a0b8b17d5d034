/-
# Numbers that digits make up

A text of digits is a whole number exactly if all of its characters are digits of a positional
system and there are no more of them than the limit (`integer_eq_ok_iff`).  Superscripts and their
like are digits as well, but no number can be made of them.

The number has no more digits than its text, so it can be written again (`isWritable_of_integer`).
The numbers of nothing but nines are the greatest ones of their length (`integer_nines`).

The reader of numbers takes more than digits: a sign, underscores, and blanks at both ends.  On a
text of digits it has none of these to look for, because a digit is neither white space nor a sign
nor an underscore.  The tables of the standard say so, and the fact is taken from them once, by
going through the ranges of white space (`isSpace_of_isDigit`).  All that remains of the reader then
is the run of digits and its length.
-/
import SmartEnter.Decimal.Numeral
import Mathlib.Data.List.Induction
import Mathlib.Data.List.TakeWhile

namespace SmartEnter

namespace Unicode

variable {c : Char} {d n : Nat} {ranges : List (Nat × Nat)}

theorem exists_of_inRanges (h : inRanges ranges n = true) : ∃ r ∈ ranges, r.1 ≤ n ∧ n ≤ r.2 := by
  induction ranges with
  | nil => cases h
  | cons r ranges ih =>
    obtain ⟨lo, hi⟩ := r
    rw [inRanges] at h
    split at h
    · cases h
    · next hlo =>
      rcases Bool.or_eq_true_iff.1 h with hhi | hrest
      · exact ⟨_, List.mem_cons_self, Nat.not_lt.1 hlo, of_decide_eq_true hhi⟩
      · obtain ⟨r, hr, hin⟩ := ih hrest
        exact ⟨r, List.mem_cons_of_mem _ hr, hin⟩

/-- No digit is white space.  The ranges of white space are few, so each of their ends is compared
with the digits. -/
theorem isSpace_of_isDigit (h : isDigit c = true) : isSpace c = false := by
  have hapart : ∀ r ∈ digitRanges, ∀ s ∈ spaceRanges, r.2 < s.1 ∨ s.2 < r.1 := by decide +kernel
  rw [Bool.eq_false_iff]
  intro hspace
  obtain ⟨r, hr, hlo, hhi⟩ := exists_of_inRanges h
  obtain ⟨s, hs, hlo', hhi'⟩ := exists_of_inRanges hspace
  have := hapart r hr s hs
  omega

theorem lt_ten_of_decimalValue? (h : decimalValue? c = some d) : d < 10 := by
  rw [decimalValue?, Option.map_eq_some_iff] at h
  obtain ⟨z, hz, rfl⟩ := h
  have := List.find?_some hz
  simp only [Bool.and_eq_true, decide_eq_true_eq] at this
  omega

end Unicode

namespace Decimal

open Unicode (decimalValue? isDigit)

variable {c : Char} {d n : Nat} {digits : List Nat} {s rest : List Char}

/-! ## 1. The value of digits

The induction is from the last digit, since that is where the value grows by a factor of ten. -/

theorem ofDigits_append_singleton : ofDigits (digits ++ [d]) = 10 * ofDigits digits + d := by
  simp [ofDigits]

/-- Digits make up a number with no more digits than there are of them. -/
theorem ofDigits_lt (h : ∀ d ∈ digits, d < 10) : ofDigits digits < Nat.pow 10 digits.length := by
  induction digits using List.reverseRecOn with
  | nil => exact Nat.one_pos
  | append_singleton digits d ih =>
    have hd := h d (List.mem_append_right _ (List.mem_singleton_self d))
    have hdigits := ih fun x hx => h x (List.mem_append_left _ hx)
    have hpow : Nat.pow 10 (digits.length + 1) = Nat.pow 10 digits.length * 10 := rfl
    rw [ofDigits_append_singleton, List.length_append, List.length_singleton, hpow]
    omega

theorem ofDigits_nines : ofDigits (List.replicate n 9) + 1 = Nat.pow 10 n := by
  induction n with
  | zero => rfl
  | succ n ih =>
    have hpow : Nat.pow 10 (n + 1) = Nat.pow 10 n * 10 := rfl
    rw [List.replicate_succ', ofDigits_append_singleton, hpow]
    omega

/-! ## 2. Digits as they are read

The reader passes over single underscores between digits.  Where there are none it takes the values
of the characters one after the other. -/

/-- The value of a character that is a decimal digit, and zero for any other one, which is never
asked about. -/
def digitValue (c : Char) : Nat := (decimalValue? c).getD 0

theorem digitValue_lt : digitValue c < 10 := by
  unfold digitValue
  cases h : decimalValue? c with
  | none => simp
  | some d => exact Unicode.lt_ten_of_decimalValue? h

theorem groupedDigits?_cons (hc : (decimalValue? c).isSome = true) (hrest : rest ≠ [])
    (hhead : rest.head? ≠ some '_') :
    groupedDigits? (c :: rest) = (groupedDigits? rest).map (digitValue c :: ·) := by
  obtain ⟨d, hd⟩ := Option.isSome_iff_exists.1 hc
  rw [digitValue, hd]
  rw [groupedDigits?.eq_def]
  split
  · contradiction
  · next heq => simp_all
  · next heq => simp_all
  · next heq =>
    obtain ⟨rfl, rfl⟩ := List.cons.inj heq
    rw [hd]
    cases groupedDigits? rest <;> rfl

theorem groupedDigits?_of_decimal (hs : s ≠ [])
    (h : ∀ c ∈ s, (decimalValue? c).isSome = true) :
    groupedDigits? s = some (s.map digitValue) := by
  induction s with
  | nil => contradiction
  | cons c rest ih =>
    have hc := h c List.mem_cons_self
    have hrest : ∀ c ∈ rest, (decimalValue? c).isSome = true :=
      fun x hx => h x (List.mem_cons_of_mem c hx)
    cases rest with
    | nil =>
      obtain ⟨d, hd⟩ := Option.isSome_iff_exists.1 hc
      simp [groupedDigits?, digitValue, hd]
    | cons x rest =>
      have hx : x ≠ '_' := by
        rintro rfl
        exact absurd (hrest '_' List.mem_cons_self) (by decide)
      rw [groupedDigits?_cons hc (List.cons_ne_nil x rest) (by simpa using hx),
        ih (List.cons_ne_nil x rest) hrest]
      rfl

/-! ## 3. Texts of digits

The reader of numbers on a text in which there is nothing but digits, of positional systems or
not. -/

theorem isPadding_of_isDigit (h : isDigit c = true) : isPadding c = false := by
  rw [isPadding, Unicode.isSpace_of_isDigit h, Bool.false_and]

/-- Neither blanks nor a sign stand before the digits of a text, so nothing is taken off it. -/
theorem splitSign_of_digits (h : ∀ c ∈ s, isDigit c = true) :
    splitSign (s.dropWhile isPadding) = (false, s) := by
  cases s with
  | nil => rfl
  | cons c rest =>
    have hc := h c List.mem_cons_self
    rw [List.dropWhile_cons_of_neg (by simp [isPadding_of_isDigit hc])]
    unfold splitSign
    split
    · next heq =>
      obtain ⟨rfl, -⟩ := List.cons.inj heq
      exact absurd hc (by decide)
    · next heq =>
      obtain ⟨rfl, -⟩ := List.cons.inj heq
      exact absurd hc (by decide)
    · rfl

theorem digitRun_eq_self_iff (h : ∀ c ∈ s, isDigit c = true) :
    digitRun s = s ↔ ∀ c ∈ s, (decimalValue? c).isSome = true := by
  rw [digitRun, List.takeWhile_eq_self_iff]
  refine forall₂_congr fun c hc => ?_
  have hc' : c ≠ '_' := by
    rintro rfl
    exact absurd (h '_' hc) (by decide)
  simp [hc']

/-- Digits of a positional system are a number, unless there are too many of them. -/
theorem integer_of_decimal (hs : s ≠ []) (h : ∀ c ∈ s, isDigit c = true)
    (hdecimal : ∀ c ∈ s, (decimalValue? c).isSome = true) :
    integer s = if digitLimit < s.length then .error (.tooLong s.length)
      else .ok (ofDigits (s.map digitValue)) := by
  simp [integer, splitSign_of_digits h, (digitRun_eq_self_iff h).2 hdecimal,
    groupedDigits?_of_decimal hs hdecimal]

/-- One digit of another kind spoils the number, wherever it stands.  The run of digits ends before
it, and what is left over is no padding. -/
theorem exists_error_of_isDigit (h : ∀ c ∈ s, isDigit c = true) (hc : c ∈ s)
    (hnone : decimalValue? c = none) : ∃ f, integer s = .error f := by
  have hnot : ¬(s.drop (digitRun s).length).all isPadding = true := by
    intro hall
    -- what is left behind the run is digits and would have to be blanks
    have hdrop : s.drop (digitRun s).length = [] := by
      refine List.eq_nil_iff_forall_not_mem.2 fun x hx => ?_
      have := List.all_eq_true.1 hall x hx
      rw [isPadding_of_isDigit (h x (List.mem_of_mem_drop hx))] at this
      cases this
    have hrun : digitRun s = s :=
      (List.takeWhile_prefix _).eq_of_length_le (List.drop_eq_nil_iff.1 hdrop)
    have := (digitRun_eq_self_iff h).1 hrun c hc
    rw [hnone] at this
    cases this
  simp only [integer, splitSign_of_digits h]
  split
  · exact ⟨_, rfl⟩
  · split
    · exact ⟨_, rfl⟩
    · simp [hnot]

/-- **A text of digits is a number** exactly if all of its characters are digits of a positional
system and there are no more of them than the limit. -/
theorem integer_eq_ok_iff (hs : s ≠ []) (h : ∀ c ∈ s, isDigit c = true) :
    (∃ n, integer s = .ok n) ↔
      (∀ c ∈ s, (decimalValue? c).isSome = true) ∧ s.length ≤ digitLimit := by
  constructor
  · rintro ⟨n, hn⟩
    have hdecimal : ∀ c ∈ s, (decimalValue? c).isSome = true := by
      intro c hc
      by_contra hnone
      obtain ⟨f, hf⟩ := exists_error_of_isDigit h hc (Option.not_isSome_iff_eq_none.1 hnone)
      rw [hf] at hn
      cases hn
    refine ⟨hdecimal, Nat.not_lt.1 fun hlong => ?_⟩
    rw [integer_of_decimal hs h hdecimal, if_pos hlong] at hn
    cases hn
  · rintro ⟨hdecimal, hlength⟩
    rw [integer_of_decimal hs h hdecimal, if_neg (Nat.not_lt.2 hlength)]
    exact ⟨_, rfl⟩

/-- **A number that was read from digits can be written.**  The limit on digits is the same in both
directions, and a number has no more digits than a text that it was read from. -/
theorem isWritable_of_integer {n : Int} (hs : s ≠ []) (h : ∀ c ∈ s, isDigit c = true)
    (hn : integer s = .ok n) : IsWritable n := by
  obtain ⟨hdecimal, hlength⟩ := (integer_eq_ok_iff hs h).1 ⟨n, hn⟩
  rw [integer_of_decimal hs h hdecimal, if_neg (Nat.not_lt.2 hlength)] at hn
  obtain rfl := Except.ok.inj hn
  have hlt : ofDigits (s.map digitValue) < Nat.pow 10 (s.map digitValue).length :=
    ofDigits_lt fun d hd => by
      obtain ⟨c, -, rfl⟩ := List.mem_map.1 hd
      exact digitValue_lt
  rw [List.length_map] at hlt
  unfold IsWritable
  rw [Int.natAbs_natCast]
  generalize digitLimit = limit at hlength ⊢
  exact Nat.lt_of_lt_of_le hlt (Nat.pow_le_pow_right (Nat.succ_pos 9) hlength)

/-- As many nines as the limit allows are the greatest number of so many digits.  So there is a
number that can be read, and whose successor cannot be written. -/
theorem integer_nines (hn : n ≠ 0) (hlimit : n ≤ digitLimit) :
    integer (List.replicate n '9') = .ok ((Nat.pow 10 n - 1 : Nat) : Int) := by
  have hdigit : ∀ c ∈ List.replicate n '9', isDigit c = true := fun c hc => by
    rw [List.eq_of_mem_replicate hc]
    decide
  have hdecimal : ∀ c ∈ List.replicate n '9', (decimalValue? c).isSome = true := fun c hc => by
    rw [List.eq_of_mem_replicate hc]
    decide
  have hnil : List.replicate n '9' ≠ [] := by simpa using hn
  have hnine : digitValue '9' = 9 := by decide
  rw [integer_of_decimal hnil hdigit hdecimal, List.length_replicate,
    if_neg (Nat.not_lt.2 hlimit), List.map_replicate, hnine, ← ofDigits_nines,
    Nat.add_sub_cancel]

end Decimal

end SmartEnter
