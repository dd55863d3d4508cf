import ScopedSql.Decimal.Binary64

/-!
# JSON documents

A document keeps the members of an object in the order in which they were written: the first
member of an object has a meaning of its own for filters. Numbers are either whole numbers that
fit a signed or an unsigned 64-bit word, or doubles.
-/

namespace ScopedSql.Json

/-- **A whole number** that a signed or an unsigned 64-bit word can hold. -/
structure Whole where
  /-- The number. -/
  value : Int
  /-- It is no less than the least signed word. -/
  lower : Int64.minValue.toInt ≤ value := by decide
  /-- It is no more than the greatest unsigned word. -/
  upper : value < UInt64.size := by decide
  deriving DecidableEq, Repr

/-- **A number** of a document. -/
inductive Number where
  /-- A whole number, written without point and exponent. -/
  | whole (n : Whole)
  /-- Every other number. -/
  | real (x : Binary64)
  deriving DecidableEq, Repr

/-- An integer as a number: whole where a word holds it, else the nearest double. -/
def Number.ofInt (n : Int) : Number :=
  if h : Int64.minValue.toInt ≤ n ∧ n < UInt64.size then .whole ⟨n, h.1, h.2⟩
  else .real (Binary64.ofInt n)

/-- The double nearest to a number. -/
def Number.toBinary64 : Number → Binary64
  | .whole n => Binary64.ofInt n.value
  | .real x => x

/-- **A JSON document.** -/
inductive Document where
  /-- The literal `null`. -/
  | null
  /-- A truth value. -/
  | bool (b : Bool)
  /-- A number. -/
  | number (n : Number)
  /-- A string. -/
  | text (s : String)
  /-- A list of documents. -/
  | array (items : List Document)
  /-- Members in document order. -/
  | object (members : List (String × Document))
  deriving Repr, Inhabited

namespace Document

/-- A natural number as a document. -/
def ofNat (n : Nat) : Document :=
  .number (.ofInt n)

/-- The value of the first member with a given key. -/
def member? (key : String) (members : List (String × Document)) : Option Document :=
  members.lookup key

/-- The keys of an object in document order. -/
def keys (members : List (String × Document)) : List String :=
  members.map Prod.fst

end Document

end ScopedSql.Json
