import ScopedSql.Fault

/-!
# Values from documents

`Value.ofDocument` reads a scalar of a document as a value. `Value.ofTagged` and `Value.toTagged`
read and write the tagged form, an object whose one key names the kind of the value.
-/

namespace ScopedSql

open Json (Document Number Whole)

/-- An integer as a signed word, if it fits. -/
def signedWord? (n : Int) : Option Int64 :=
  if Int64.minValue.toInt ≤ n ∧ n ≤ Int64.maxValue.toInt then some (Int64.ofInt n) else none

namespace Value

/-- **A number as a value**: an integer where a signed word holds it, else the nearest double. -/
def ofNumber (n : Number) : Value :=
  match n with
  | .whole w =>
      match signedWord? w.value with
      | some i => .integer i
      | none => .real n.toBinary64
  | .real x => .real x

/-- **A scalar as a value.** Lists and objects are no values. -/
def ofDocument : Document → Except Fault Value
  | .null => .ok .null
  | .bool b => .ok (.boolean b)
  | .number n => .ok (ofNumber n)
  | .text s => .ok (.text s)
  | d => .error (.invalidPredicate (.notScalar d))

/-! ### The tagged form -/

/-- A byte in a document. -/
def byte? : Document → Option UInt8
  | .number (.whole w) => if 0 ≤ w.value ∧ w.value < 256 then some (UInt8.ofNat w.value.toNat) else none
  | _ => none

/-- **Reads the tagged form**: the text `Null`, or an object with exactly one key. -/
def ofTagged : Document → Option Value
  | .text "Null" => some .null
  | .object [("Null", .null)] => some .null
  | .object [("Integer", .number (.whole w))] => (signedWord? w.value).map .integer
  | .object [("Real", .number n)] => some (.real n.toBinary64)
  | .object [("Text", .text s)] => some (.text s)
  | .object [("Blob", .array items)] => (items.mapM byte?).map .blob
  | .object [("Boolean", .bool b)] => some (.boolean b)
  | _ => none

/-- **Writes the tagged form.** -/
def toTagged : Value → Document
  | .null => .text "Null"
  | .integer n => .object [("Integer", .number (.ofInt n.toInt))]
  | .real x => .object [("Real", .number (.real x))]
  | .text s => .object [("Text", .text s)]
  | .blob bytes => .object [("Blob", .array (bytes.map fun b => .ofNat b.toNat))]
  | .boolean b => .object [("Boolean", .bool b)]

end Value

end ScopedSql
