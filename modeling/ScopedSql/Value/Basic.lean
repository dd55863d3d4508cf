import ScopedSql.Decimal.Layout
import ScopedSql.NameMap
import ScopedSql.Text.Quoted

/-!
# Values

The values that statements bind and rows hold. Reals are words, so equality of values is decidable
and tells the two zeros apart.
-/

namespace ScopedSql

/-- **A value** that can be bound to a placeholder or read from a row. -/
inductive Value where
  /-- The absence of a value. -/
  | null
  /-- A 64-bit integer. -/
  | integer (n : Int64)
  /-- A double. -/
  | real (x : Binary64)
  /-- A text. -/
  | text (s : String)
  /-- Raw bytes. -/
  | blob (bytes : List UInt8)
  /-- A truth value. -/
  | boolean (b : Bool)
  deriving DecidableEq, Repr, Inhabited

/-- The values bound to placeholders. -/
abbrev Bindings := NameMap Value

/-- The values of the columns of a row. -/
abbrev Row := NameMap Value

/-- **Reals on display** and in column defaults are written positionally from 0.0001 up to below
10^16, with a bare exponent otherwise, and take the greater one of two equally near decimals. -/
def realLayout : Decimal.Layout where
  plainFrom := -4
  plainBelow := 16
  plus := ""
  tie := .upward
  nan := "NaN"
  infinite := "inf"

namespace Value

/-- The display form of a value: its kind and its content in parentheses. -/
def display : Value → String
  | .null => "Null"
  | .integer n => "Integer(" ++ toString n.toInt ++ ")"
  | .real x => "Real(" ++ realLayout.render x ++ ")"
  | .text s => "Text(" ++ Text.quoted s ++ ")"
  | .blob bytes => "Blob([" ++ String.intercalate ", " (bytes.map fun b => toString b.toNat) ++ "])"
  | .boolean b => "Boolean(" ++ (if b then "true" else "false") ++ ")"

/-- The display form of a value that may be missing. -/
def displayOption : Option Value → String
  | none => "None"
  | some v => "Some(" ++ v.display ++ ")"

end Value

end ScopedSql
