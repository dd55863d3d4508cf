import ScopedSql.Value.Storage

/-!
# Comparing stored values

Numbers come before texts and texts before raw bytes. Integers and doubles are compared exactly, by
their values; texts and bytes are compared byte by byte. A comparison with the absent value is
unknown, which is neither true nor false; where rows are put in order the absent value comes
first.
-/

namespace ScopedSql

namespace Stored

/-- The place of a storage class in the order. -/
def rank : Stored → Nat
  | .null => 0
  | .integer _ => 1
  | .real _ => 1
  | .text _ => 2
  | .blob _ => 3

/-- A number times `2 ^ 1074`, which is an integer for every double. -/
def scaled : Stored → Int
  | .integer n => n.toInt * power 2 1074
  | .real x => x.scaled
  | _ => 0

/-- The bytes of a text or of raw bytes. -/
def bytes : Stored → List UInt8
  | .text bs => bs
  | .blob bs => bs
  | _ => []

/-- Byte sequences, compared byte by byte. -/
def compareBytes : List UInt8 → List UInt8 → Ordering
  | [], [] => .eq
  | [], _ :: _ => .lt
  | _ :: _, [] => .gt
  | a :: as, b :: bs =>
      match compare a.toNat b.toNat with
      | .eq => compareBytes as bs
      | o => o

/-- **The order of stored values**, the absent value first. -/
def order (a b : Stored) : Ordering :=
  match compare a.rank b.rank with
  | .eq =>
      match compare a.scaled b.scaled with
      | .eq => compareBytes a.bytes b.bytes
      | o => o
  | o => o

/-- **A comparison** of two values: unknown if one is absent. -/
def compare? (a b : Stored) : Option Ordering :=
  if a = .null ∨ b = .null then none else some (a.order b)

/-- Whether a value is among others: unknown if that depends on an absent value. Nothing is among
no values, not even the absent value. -/
def among (a : Stored) (bs : List Stored) : Option Bool :=
  if bs.isEmpty then some false
  else if a = .null then none
  else if bs.any fun b => a.compare? b == some .eq then some true
  else if bs.contains .null then none
  else some false

end Stored

end ScopedSql
