import ScopedSql.Text.Utf8
import ScopedSql.Value.Basic

/-!
# What the engine stores

An engine knows five storage classes and keeps text as bytes. `Value.toStored` is what binding a
value hands over: a truth value becomes the integer 0 or 1. `Value.ofStored` is what reading
makes of it: bytes that are no UTF-8 are read leniently.
-/

namespace ScopedSql

/-- **A stored value**, in one of the storage classes of the engine. -/
inductive Stored where
  /-- The absence of a value. -/
  | null
  /-- A 64-bit integer. -/
  | integer (n : Int64)
  /-- A double. -/
  | real (x : Binary64)
  /-- The bytes of a text, UTF-8 or not. -/
  | text (bytes : List UInt8)
  /-- Raw bytes. -/
  | blob (bytes : List UInt8)
  deriving DecidableEq, Repr

namespace Value

/-- **Binding** a value. -/
def toStored : Value → Stored
  | .null => .null
  | .integer n => .integer n
  | .real x => .real x
  | .text s => .text (Text.Utf8.encode s.toList)
  | .blob bytes => .blob bytes
  | .boolean b => .integer (if b then 1 else 0)

/-- **Reading** a stored value. -/
def ofStored : Stored → Value
  | .null => .null
  | .integer n => .integer n
  | .real x => .real x
  | .text bytes => .text (String.ofList (Text.Utf8.decode bytes))
  | .blob bytes => .blob bytes

end Value

end ScopedSql
