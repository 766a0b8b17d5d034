/-
# Slices of a text

A bound of a slice is any integer.  A negative bound counts back from the end of the text, and a
bound outside the text stands for its nearer end; `bound` turns one into an offset of the text, and
the functions after it say what the slices are.

No bound is out of range, so a slice never fails: bounds that cross, or that both lie behind the
end, give an empty text.  Most callers have an offset of the text in hand, for which all this comes
to nothing (`bound_natCast`).  The general form is kept for the callers that have not, such as a
caret that an editor has left behind a text that became shorter, and what they get is then a matter
of `bound` alone.
-/

namespace SmartEnter.Text

/-- The offset a bound stands for in a text of length `len`.  A negative one counts from the end,
and is drawn to the start if it reaches beyond it. -/
def bound (len : Nat) (i : Int) : Nat :=
  if i < 0 then (i + len).toNat else min i.toNat len

/-- The characters from one bound up to another; none when the bounds cross, which they may do only
after they have been turned into offsets. -/
def slice (s : List Char) (a b : Int) : List Char :=
  (s.take (bound s.length b)).drop (bound s.length a)

/-- The characters from a bound on. -/
def sliceFrom (s : List Char) (a : Int) : List Char := s.drop (bound s.length a)

/-- The text with another one put in at a bound.  Nothing is taken out, wherever the bound lies. -/
def insertAt (s : List Char) (i : Int) (new : List Char) : List Char :=
  s.take (bound s.length i) ++ new ++ s.drop (bound s.length i)

theorem bound_le (len : Nat) (i : Int) : bound len i ≤ len := by
  unfold bound
  split <;> omega

theorem bound_natCast {len n : Nat} (h : n ≤ len) : bound len n = n := by
  unfold bound
  split <;> omega

/-- Both halves of a text around an offset are kept by an insertion there, and nothing else is in
the text but what was put in. -/
theorem insertAt_natCast {s : List Char} {n : Nat} (h : n ≤ s.length) (new : List Char) :
    insertAt s n new = s.take n ++ new ++ s.drop n := by
  simp [insertAt, bound_natCast h]

theorem length_insertAt (s : List Char) (i : Int) (new : List Char) :
    (insertAt s i new).length = s.length + new.length := by
  have := bound_le s.length i
  simp [insertAt]
  omega

end SmartEnter.Text
