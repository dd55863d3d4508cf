/-!
# Double precision numbers as words

A `Binary64` is the 64-bit word of an IEEE 754 double. Equality is equality of words, so the two
zeros differ and a NaN equals itself. The module takes a word apart into sign, significand and
exponent, and rounds exact rationals to the nearest word, ties to the even significand.
-/

namespace ScopedSql

/-- The power `b ^ k`, and one where `k` is negative. -/
def power (b : Nat) (k : Int) : Nat := Nat.pow b k.toNat

/-- **A double**, held as its 64 bits. -/
structure Binary64 where
  /-- The word: sign bit, eleven bits of exponent, fifty-two bits of fraction. -/
  bits : UInt64
  deriving DecidableEq, Repr, Inhabited

namespace Binary64

/-- The sign bit. -/
def isNegative (x : Binary64) : Bool :=
  decide (power 2 63 ≤ x.bits.toNat)

/-- The eleven bits of the exponent. -/
def exponentField (x : Binary64) : Nat :=
  x.bits.toNat / power 2 52 % power 2 11

/-- The fifty-two bits of the fraction. -/
def fraction (x : Binary64) : Nat :=
  x.bits.toNat % power 2 52

/-- Neither an infinity nor a NaN. -/
def isFinite (x : Binary64) : Bool :=
  decide (x.exponentField ≠ 2047)

/-- Not a number. -/
def isNaN (x : Binary64) : Bool :=
  decide (x.exponentField = 2047) && decide (x.fraction ≠ 0)

/-- The integer significand `m` of a finite value `m * 2 ^ q`. -/
def significand (x : Binary64) : Nat :=
  if x.exponentField = 0 then x.fraction else power 2 52 + x.fraction

/-- The exponent `q` of a finite value `m * 2 ^ q`. -/
def exponent (x : Binary64) : Int :=
  if x.exponentField = 0 then -1074 else (x.exponentField : Int) - 1075

/-- Plus or minus zero. -/
def isZero (x : Binary64) : Bool :=
  decide (x.exponentField = 0) && decide (x.fraction = 0)

/-- The word with a given sign and a given magnitude below `2 ^ 63`. -/
def ofSignMagnitude (negative : Bool) (magnitude : Nat) : Binary64 :=
  ⟨UInt64.ofNat (magnitude + if negative then power 2 63 else 0)⟩

/-- The magnitude of the infinities: every greater one is a NaN. -/
def infiniteMagnitude : Nat := 2047 * power 2 52

/-- The quiet NaN. -/
def nan : Binary64 := ofSignMagnitude false (infiniteMagnitude + power 2 51)

/-- The infinity of a given sign. -/
def infinity (negative : Bool) : Binary64 := ofSignMagnitude negative infiniteMagnitude

/-! ### Rounding -/

/-- The quotient rounded to the nearest natural number, ties to the even one. -/
def roundQuotient (num den : Nat) : Nat :=
  let floor := num / den
  let twice := 2 * (num % den)
  if twice < den ∨ (twice = den ∧ floor % 2 = 0) then floor else floor + 1

/-- The quotient `num / (den * 2 ^ q)`, rounded. -/
def roundScaled (num den : Nat) (q : Int) : Nat :=
  roundQuotient (num * power 2 (-q)) (den * power 2 q)

/-- The least exponent that the significand of `num / den` may have: fifty-three bits, or fewer
near zero. -/
def scaleOf (num den : Nat) : Int :=
  let estimate := (num.log2 : Int) - den.log2 - 52
  let tooGreat := num * power 2 (-estimate) < power 2 52 * (den * power 2 estimate)
  max (if tooGreat then estimate - 1 else estimate) (-1074)

/-- **The magnitude of the nearest double** to `num / den`. A significand that rounds up to the
next power of two carries into the exponent by itself, and what lies beyond the greatest finite
double is infinite. -/
def magnitudeOfRatio (num den : Nat) : Nat :=
  if num = 0 then 0
  else
    let q := scaleOf num den
    min ((q + 1074).toNat * power 2 52 + roundScaled num den q) infiniteMagnitude

/-- The double nearest to an integer. -/
def ofInt (n : Int) : Binary64 :=
  ofSignMagnitude (decide (n < 0)) (magnitudeOfRatio n.natAbs 1)

/-- **The double nearest to a decimal** `digits * 10 ^ exponent` with a sign. Exponents far out of
range are settled by the size of the number alone. -/
def ofDecimal (negative : Bool) (digits : Nat) (exponent : Int) : Binary64 :=
  let length : Int := (Nat.toDigits 10 digits).length
  ofSignMagnitude negative <|
    if digits = 0 ∨ length + exponent < -400 then 0
    else if 400 < length + exponent then infiniteMagnitude
    else magnitudeOfRatio (digits * power 10 exponent) (power 10 (-exponent))

/-- The sixteen lower-case hexadecimal digits of the word. -/
def hex (x : Binary64) : String :=
  let digits := Nat.toDigits 16 x.bits.toNat
  String.ofList (List.replicate (16 - digits.length) '0' ++ digits)

/-! ### Order -/

/-- A finite value times `2 ^ 1074`, which is an integer. -/
def scaled (x : Binary64) : Int :=
  let m : Int := x.significand * power 2 (x.exponent + 1074)
  if x.isNegative then -m else m

/-- The integer that a double is, if it is one. -/
def whole? (x : Binary64) : Option Int :=
  if x.isFinite && x.scaled % power 2 1074 == 0 then some (x.scaled / power 2 1074) else none

end Binary64

end ScopedSql
