import ScopedSql.Decimal.Binary64

/-!
# The shortest decimal of a double

The reals that round to a double form an interval around it: from halfway to the double below to
halfway to the double above, ends included exactly when the significand is even. `Decimal.ofBinary64`
finds the decimal with the fewest digits in that interval, and of two with equally few the nearer
one. It tries grids of 1, 2, … 17 digits in turn; on each only the two neighbours of the value
can be nearest, so only these are tested, in exact arithmetic.
-/

namespace ScopedSql

/-- **A decimal** `digits * 10 ^ exponent`. -/
structure Decimal where
  /-- The digits, read as one number. -/
  digits : Nat
  /-- The power of ten of the last digit. -/
  exponent : Int
  deriving DecidableEq, Repr

namespace Decimal

/-- Which of two equally near decimals is taken. -/
inductive Tie where
  /-- The one whose last digit is even. -/
  | toEven
  /-- The one further from zero. -/
  | upward
  deriving DecidableEq, Repr

/-- **The interval of a double**: the rationals `below / den` and `above / den` are its ends,
`value / den` is the double itself, and `closed` says that the ends belong to it. -/
structure Interval where
  /-- Numerator of the lower end. -/
  below : Nat
  /-- Numerator of the double. -/
  value : Nat
  /-- Numerator of the upper end. -/
  above : Nat
  /-- The common denominator. -/
  den : Nat
  /-- Whether the ends round to the double. -/
  closed : Bool
  deriving DecidableEq, Repr

/-- The interval of a positive finite double, in quarters of its last place. Just above a power of
two the gap below is half as wide as the gap above. -/
def Interval.of (x : Binary64) : Interval :=
  let q := x.exponent - 2
  let scale := power 2 q
  let m := 4 * x.significand
  let narrow := decide (x.fraction = 0) && decide (1 < x.exponentField)
  { below := (if narrow then m - 1 else m - 2) * scale
    value := m * scale
    above := (m + 2) * scale
    den := power 2 (-q)
    closed := x.significand % 2 == 0 }

/-- Whether `digits * 10 ^ exponent` lies in the interval. -/
def Interval.holds (i : Interval) (d : Decimal) : Bool :=
  let point := d.digits * power 10 d.exponent * i.den
  let low := i.below * power 10 (-d.exponent)
  let high := i.above * power 10 (-d.exponent)
  if i.closed then decide (low ≤ point) && decide (point ≤ high)
  else decide (low < point) && decide (point < high)

/-- The value divided by `10 ^ exponent`, rounded down. -/
def Interval.floorAt (i : Interval) (exponent : Int) : Nat :=
  i.value * power 10 (-exponent) / (power 10 exponent * i.den)

/-- Twice the value against the sum of the two neighbours `floor` and `floor + 1` on a grid. -/
def Interval.leaning (i : Interval) (floor : Nat) (exponent : Int) : Ordering :=
  compare (2 * i.value * power 10 (-exponent))
    ((2 * floor + 1) * (power 10 exponent * i.den))

/-- **The best decimal on one grid**, if one of the two neighbours of the value lies in the
interval. -/
def Interval.nearestAt (i : Interval) (tie : Tie) (exponent : Int) : Option Decimal :=
  let floor := i.floorAt exponent
  let lower : Decimal := ⟨floor, exponent⟩
  let upper : Decimal := ⟨floor + 1, exponent⟩
  match i.holds lower, i.holds upper with
  | false, false => none
  | true, false => some lower
  | false, true => some upper
  | true, true =>
      match i.leaning floor exponent with
      | .lt => some lower
      | .gt => some upper
      | .eq => if tie = .toEven ∧ floor % 2 = 0 then some lower else some upper

/-- The least `k` for which the value is below `10 ^ k`: estimated from the binary logarithm and
corrected by exact comparisons. -/
def Interval.magnitude (i : Interval) (binaryLog : Int) : Int :=
  let estimate := binaryLog * 30103 / 100000
  let fits (k : Int) : Bool := decide (i.value * power 10 (-k) < power 10 k * i.den)
  if fits estimate then estimate
  else if fits (estimate + 1) then estimate + 1
  else estimate + 2

/-- Moves trailing zeros of the digits into the exponent. The fuel bounds their number. -/
def stripZeros : Nat → Decimal → Decimal
  | 0, d => d
  | fuel + 1, d =>
      if d.digits ≠ 0 ∧ d.digits % 10 = 0 then stripZeros fuel ⟨d.digits / 10, d.exponent + 1⟩
      else d

/-- The exact decimal value of a finite double. -/
def exact (x : Binary64) : Decimal :=
  ⟨x.significand * power 2 x.exponent * power 5 (-x.exponent), min x.exponent 0⟩

/-- **The shortest decimal** that rounds to a positive finite double. -/
def ofBinary64 (tie : Tie) (x : Binary64) : Decimal :=
  let i := Interval.of x
  let k := i.magnitude ((x.significand.log2 : Int) + x.exponent)
  let found := (List.range 17).findSome? fun (n : Nat) => i.nearestAt tie (k - 1 - n)
  stripZeros 1100 (found.getD (exact x))

end Decimal

end ScopedSql
