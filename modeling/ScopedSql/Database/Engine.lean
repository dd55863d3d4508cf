import ScopedSql.Fault
import ScopedSql.Scope.Basic

/-!
# Engine calls and replies

What a database asks of its engine and what the engine answers. A reply may be held back until a
named hold is released, so every delay and every failure of an engine can be written down.
-/

namespace ScopedSql

/-- **What is asked of a statement.** -/
inductive Verb where
  /-- Its effect. -/
  | run
  /-- Its first row. -/
  | get
  /-- All its rows. -/
  | all
  deriving DecidableEq, Repr

/-- **One engine call.** -/
inductive Call where
  /-- A statement with its bindings. -/
  | direct (verb : Verb) (sql : String) (bindings : Bindings)
  /-- A statement to be prepared. -/
  | prepare (sql : String)
  /-- A prepared statement with its bindings. -/
  | prepared (verb : Verb) (sql : String) (bindings : Bindings)
  deriving DecidableEq

/-- **What an engine answers.** A call uses the part that it asked for. -/
structure Response where
  /-- The number of rows that were changed. -/
  changes : Nat := 0
  /-- The identity of the row that was inserted last. -/
  rowid : Int64 := 0
  /-- The first row. -/
  row : Option Row := none
  /-- All rows. -/
  rows : List Row := []
  deriving DecidableEq, Inhabited

/-- **A reply** to one call, held back until the hold is released if there is one. -/
structure Reply where
  /-- The hold. -/
  hold : Option String := none
  /-- The answer. -/
  result : Except Fault Response := .ok {}

instance : Inhabited Reply := ⟨{}⟩

/-- **What an operation ends with**, when it does not fail. -/
inductive Outcome where
  /-- Nothing to say. -/
  | done
  /-- The scope that was waited for. -/
  | scope (scope : ScopeId)
  /-- The effect of a statement. -/
  | summary (changes : Nat) (rowid : Int64)
  /-- A row, if there is one. -/
  | row (row : Option Row)
  /-- Rows. -/
  | rows (rows : List Row)
  /-- A number of rows. -/
  | count (n : Int64)
  /-- A prepared statement. -/
  | statement (sql : String)
  deriving DecidableEq

/-- The part of a response that a verb asks for. -/
def Verb.read (r : Response) : Verb → Outcome
  | .run => .summary r.changes r.rowid
  | .get => .row r.row
  | .all => .rows r.rows

/-- **The number in the row of a count**: the integer in its column `count`. -/
def readCount (row : Option Row) : Except Fault Outcome :=
  match row.bind (NameMap.get? · "count") with
  | some (.integer n) => .ok (.count n)
  | found => .error (.invalidOperation (.badCount found))

end ScopedSql
