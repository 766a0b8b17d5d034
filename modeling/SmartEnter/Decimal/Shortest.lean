/-
# The shortest decimal of a number

A double precision number is shown with the fewest digits that read back as the same number.  The
numbers that round to `m·2^q` form an interval around it, ends included if `m` is even.  For one
digit, two digits, and so on, the two neighbours of the number on the decimal grid of that many
digits are tested, and the first grid with a neighbour in the interval wins; of two neighbours the
nearer one is taken, and of two equally near ones the even one.

All comparisons are made between natural numbers, in a unit that is fine enough for the ends of the
interval (`interval`, `compareWith`), so nothing is ever rounded on the way to the digits.  The
search is bounded by seventeen digits, with which every number reads back.

How the digits are set down is a separate step (`positiveText`): positional as long as the point
stands near them, with an exponent else.
-/
import SmartEnter.Decimal.Binary64

namespace SmartEnter.Decimal

/-- The decimal `digits·10^exponent`.  Many pairs stand for one decimal; `trimZeros` picks the one
without zeros at its end. -/
structure Scientific where
  digits : Nat
  exponent : Int
  deriving Repr, DecidableEq

namespace Binary64

/--
The interval of what rounds to `m·2^q`: its ends and the number itself, all in the same unit,
which is `2^(q-2)`.  Below a power of two the neighbours are half as far away.
-/
def interval (m : Nat) (q : Int) : Nat × Nat × Nat :=
  let low := if m = significandLimit / 2 ∧ leastExponent < q then 4 * m - 1 else 4 * m - 2
  (low, 4 * m, 4 * m + 2)

/-- Compares `digits·10^exponent` with `n·2^(q-2)`.  Powers below zero are moved to the other side,
so that both sides are natural numbers. -/
def compareWith (d : Scientific) (n : Nat) (q : Int) : Ordering :=
  let left := if d.exponent < 0 then d.digits else d.digits * Nat.pow 10 d.exponent.toNat
  let right := if d.exponent < 0 then n * Nat.pow 10 (-d.exponent).toNat else n
  let pair := scale right 1 (-(q - 2))
  compare (left * pair.2) pair.1

/-- Does a decimal round to `m·2^q`?  An end of the interval is half-way between two numbers, and
rounds to the one with the even significand. -/
def roundsTo (m : Nat) (q : Int) (d : Scientific) : Bool :=
  let (low, _, high) := interval m q
  match compareWith d low q, compareWith d high q with
  | .gt, .lt => true
  | .eq, .lt => m % 2 = 0
  | .gt, .eq => m % 2 = 0
  | _, _ => false

/-- `m·2^q` in units of `10^exponent`, rounded down and rounded to the nearest integer.  The
neighbours on the grid are the first of the two and the one after it. -/
def onGrid (m : Nat) (q exponent : Int) : Nat × Nat :=
  let num := if exponent < 0 then m * Nat.pow 10 (-exponent).toNat else m
  let den := if exponent < 0 then 1 else Nat.pow 10 exponent.toNat
  let pair := scale num den (-q)
  (pair.1 / pair.2, roundQuotient pair.1 pair.2)

/-- The decimal exponent of the leading digit of `m·2^q`.  Of a number below one the digits behind
the point are counted, as far as there are any. -/
def leadingExponent (m : Nat) (q : Int) : Int :=
  if q < 0 then
    let shift := (-q).toNat
    let whole := m >>> shift
    if whole = 0 then
      let scaled := (m * Nat.pow 10 shift) >>> shift
      (Nat.toDigits 10 scaled).length - 1 - (shift : Int)
    else (Nat.toDigits 10 whole).length - 1
  else (Nat.toDigits 10 (m <<< q.toNat)).length - 1

/-- A decimal of at most `count` digits that rounds to `m·2^q`, if there is one.  The nearer
neighbour is tried first, so it is taken if both do. -/
def withDigits? (m : Nat) (q : Int) (count : Nat) : Option Scientific :=
  let exponent := leadingExponent m q - count + 1
  let (below, nearest) := onGrid m q exponent
  let other := if nearest = below then below + 1 else below
  [⟨nearest, exponent⟩, ⟨other, exponent⟩].find? (roundsTo m q)

/-- Writes a decimal without zeros at its end, which would add nothing to what the number is. -/
def trimZeros : Nat → Scientific → Scientific
  | 0, d => d
  | fuel + 1, d =>
    if d.digits % 10 = 0 ∧ d.digits ≠ 0 then trimZeros fuel ⟨d.digits / 10, d.exponent + 1⟩
    else d

/-- The shortest decimal that rounds to `m·2^q`; seventeen digits always suffice.  If they did not,
the seventeen digits nearest to the number would be shown. -/
def shortest (m : Nat) (q : Int) : Scientific :=
  trimZeros 17 (((List.range 17).findSome? fun n => withDigits? m q (n + 1)).getD
    ⟨(onGrid m q (leadingExponent m q - 16)).2, leadingExponent m q - 16⟩)

/-! ## 1. The text of a number -/

/-- The digits of a positive number around its point, with the exponent form for the far ones.  A
number without digits behind its point gets a zero there, so that it is seen to be no whole
number. -/
def positiveText (d : Scientific) : String :=
  let digits := String.ofList (Nat.toDigits 10 d.digits)
  let zeros := fun n : Int => String.ofList (List.replicate n.toNat '0')
  let point : Int := digits.length + d.exponent
  if point ≤ -4 ∨ 16 < point then
    let power := point - 1
    let fraction := if digits.length = 1 then "" else "." ++ (digits.drop 1).toString
    let size := toString power.natAbs
    (digits.take 1).toString ++ fraction ++ "e" ++ (if power < 0 then "-" else "+")
      ++ (if size.length < 2 then "0" else "") ++ size
  else if point ≤ 0 then "0." ++ zeros (-point) ++ digits
  else if (digits.length : Int) ≤ point then digits ++ zeros d.exponent ++ ".0"
  else (digits.take point.toNat).toString ++ "." ++ (digits.drop point.toNat).toString

/--
The text of a number.  It is positional when the point stands behind at most sixteen digits and in
front of at most three zeros; the exponent of the other form has a sign and at least two digits.
-/
def text : Binary64 → String
  | nan => "nan"
  | infinity negative => if negative then "-inf" else "inf"
  | finite negative m q =>
    (if negative then "-" else "") ++ (if m = 0 then "0.0" else positiveText (shortest m q))

end Binary64

end SmartEnter.Decimal
