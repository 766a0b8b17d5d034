/-
# Double precision numbers

A finite number is a sign, a significand below 2^53 and a power of two.  `ofDecimal` finds the
nearest number to a decimal, in exact arithmetic: a decimal is a quotient of two natural numbers,
and the significand is that quotient, in the right power of two, rounded to the nearest integer with
a half going to the even neighbour (`roundQuotient`).

Such numbers come from style files, where a fraction may stand wherever a value may, and they go
into messages about values of the wrong type.  Nothing is ever calculated with them.  So the type
has no arithmetic, and the two directions, from a decimal and back to one, are all there is; the way
back is in `Decimal/Shortest`.

The decimals that are far out are answered without the quotient: the exponent is any integer that a
text can hold, and the power of ten it asks for would not fit anywhere.
-/
namespace SmartEnter.Decimal

/-- A double precision number.  Zero has a sign, as have the two infinities; there is one value for
all that are no number. -/
inductive Binary64 where
  /-- The number `±m·2^q`. -/
  | finite (negative : Bool) (m : Nat) (q : Int)
  | infinity (negative : Bool)
  | nan
  deriving Repr, DecidableEq

/-- The integer nearest to a quotient; a half goes to the even neighbour. -/
def roundQuotient (num den : Nat) : Nat :=
  let whole := num / den
  let twice := 2 * (num % den)
  if twice < den ∨ (twice = den ∧ whole % 2 = 0) then whole else whole + 1

/-- A quotient over a power of two.  Whichever sign the power has, numerator and denominator stay
natural numbers. -/
def scale (num den : Nat) (q : Int) : Nat × Nat :=
  if q < 0 then (num <<< (-q).toNat, den) else (num, den <<< q.toNat)

namespace Binary64

/-- The least power of two of a number.  Numbers below the normal ones all have it, with a
significand of fewer bits. -/
def leastExponent : Int := -1074

/-- The significands of all numbers are below 2^53, so they have 53 bits at most. -/
def significandLimit : Nat := 1 <<< 53

/-- The power of two in which a positive quotient has a significand of 53 bits, or the least one.
The binary logarithms of numerator and denominator give it up to one, and a look at the quotient
decides between the two. -/
def exponentOf (num den : Nat) : Int :=
  let guess : Int := (num.log2 : Int) - den.log2 - 53
  let scaled := scale num den guess
  max leastExponent (if significandLimit ≤ scaled.1 / scaled.2 then guess + 1 else guess)

/-- The number nearest to a positive quotient.  Rounding up may carry into a new bit, which makes
the significand a power of two, and the result may be too large for any number, which makes it
infinite. -/
def ofQuotient (negative : Bool) (num den : Nat) : Binary64 :=
  let q := exponentOf num den
  let scaled := scale num den q
  let m := roundQuotient scaled.1 scaled.2
  let m' := if m = significandLimit then significandLimit / 2 else m
  let q' := if m = significandLimit then q + 1 else q
  if 971 < q' then infinity negative else finite negative m' q'

/-- The number nearest to `±digits·10^exponent`.  The two guards are about the place of the leading
digit: below the first every number rounds to zero, above the second every one to infinity. -/
def ofDecimal (negative : Bool) (digits : Nat) (exponent : Int) : Binary64 :=
  let size : Int := (Nat.toDigits 10 digits).length + exponent
  if digits = 0 ∨ size < -330 then finite negative 0 leastExponent
  else if 310 < size then infinity negative
  else if exponent < 0 then ofQuotient negative digits (Nat.pow 10 (-exponent).toNat)
  else ofQuotient negative (digits * Nat.pow 10 exponent.toNat) 1

end Binary64

end SmartEnter.Decimal
