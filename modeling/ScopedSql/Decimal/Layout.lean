import ScopedSql.Decimal.Shortest

/-!
# How doubles are laid out as text

A `Layout` holds the decisions of one number format: between which exponents a number is written
positionally, how an exponent is marked, which of two equally near decimals is taken, and the
texts of the values that are no numbers. `Layout.render` writes a double by such a record.
-/

namespace ScopedSql.Decimal

/-- **A number format.** A number whose leading digit has the exponent `e` is written positionally
when `plainFrom ≤ e < plainBelow`, and with an exponent otherwise. -/
structure Layout where
  /-- The least exponent that is written positionally. -/
  plainFrom : Int
  /-- The least exponent above those. -/
  plainBelow : Int
  /-- What stands between the exponent mark and a non-negative exponent. -/
  plus : String
  /-- Which of two equally near decimals is written. -/
  tie : Tie
  /-- The text of NaN. -/
  nan : String
  /-- The text of positive infinity. -/
  infinite : String

/-- The decimal digits of a number. -/
def digitsOf (n : Nat) : List Char :=
  Nat.toDigits 10 n

/-- Digits with their point, for a leading digit of exponent `e`; there is always a digit on
either side of the point. -/
def positional (digits : List Char) (e : Int) : List Char :=
  if e < 0 then ['0', '.'] ++ List.replicate (-e - 1).toNat '0' ++ digits
  else
    let whole := e.toNat + 1
    if whole < digits.length then digits.take whole ++ ['.'] ++ digits.drop whole
    else digits ++ List.replicate (whole - digits.length) '0' ++ ['.', '0']

/-- Digits with an exponent: a point follows the first digit when there are more. -/
def scientific (plus : String) (digits : List Char) (e : Int) : List Char :=
  let mantissa := match digits with
    | [] => []
    | [d] => [d]
    | d :: more => d :: '.' :: more
  let mark := if e < 0 then ['-'] else plus.toList
  mantissa ++ ['e'] ++ mark ++ digitsOf e.natAbs

/-- The text of a positive finite double. -/
def Layout.renderPositive (l : Layout) (x : Binary64) : List Char :=
  let d := Decimal.ofBinary64 l.tie x
  let digits := digitsOf d.digits
  let e := d.exponent + digits.length - 1
  if l.plainFrom ≤ e ∧ e < l.plainBelow then positional digits e
  else scientific l.plus digits e

/-- **The text of a double** in a format. -/
def Layout.render (l : Layout) (x : Binary64) : String :=
  if x.isNaN then l.nan
  else
    let sign := if x.isNegative then "-" else ""
    if !x.isFinite then sign ++ l.infinite
    else if x.isZero then sign ++ "0.0"
    else sign ++ String.ofList (l.renderPositive x)

end ScopedSql.Decimal
