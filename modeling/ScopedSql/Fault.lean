import ScopedSql.Json.Printer
import ScopedSql.Predicate.Operator
import ScopedSql.Value.Basic

/-!
# Faults

Everything that an operation can fail with. A fault is a cause; its wording is in one `message`
function for each family of causes. The `stated` cause of a family carries a wording made by
whoever reports the fault.
-/

namespace ScopedSql

open Json (Document)

/-- **Why a filter is refused.** -/
inductive PredicateFault where
  /-- A filter is neither an object nor a list. -/
  | shape (found : Document)
  /-- A list is too short to be a comparison. -/
  | fewEntries (count : Nat)
  /-- The first entry of a list is no text. -/
  | columnNotText (found : Document)
  /-- The second entry of a list is no text. -/
  | operatorNotText (found : Document)
  /-- A condition object has neither operator nor value. -/
  | bareCondition (column : String) (found : Document)
  /-- The operator of a condition object is no text. -/
  | conditionOperator (column : String) (found : Document)
  /-- A group is no list. -/
  | groupNotList (connector : Connector) (found : Document)
  /-- An operand is not a scalar. -/
  | notScalar (found : Document)
  /-- A list operator compares with a single value. -/
  | needsList (operator : Operator) (column : String)
  /-- Another operator compares with a list. -/
  | refusesList (operator : Operator) (column : String)
  /-- A wording from elsewhere. -/
  | stated (text : String)

/-- The wording of a refused filter. -/
def PredicateFault.message : PredicateFault → String
  | .shape found =>
      "where must be an object or a [column, operator, value] list, found " ++ found.compact
  | .fewEntries count =>
      "where list needs column, operator and value, found " ++ toString count ++ " entries"
  | .columnNotText found => "column must be a string, found " ++ found.compact
  | .operatorNotText found => "operator must be a string, found " ++ found.compact
  | .bareCondition column found =>
      "condition on " ++ column ++ " needs an operator or a value, found " ++ found.compact
  | .conditionOperator column found =>
      "operator for " ++ column ++ " must be a string, found " ++ found.compact
  | .groupNotList connector found =>
      connector.sql ++ " expects a list of conditions, found " ++ found.compact
  | .notScalar found => "expected a scalar value, found " ++ found.compact
  | .needsList operator column => operator.sql ++ " on " ++ column ++ " requires a list value"
  | .refusesList operator column =>
      operator.sql ++ " on " ++ column ++ " does not accept a list value"
  | .stated text => text

/-- **Why an operation is refused or its result is not understood.** -/
inductive OperationFault where
  /-- A table is defined without columns. -/
  | noColumns (table : String)
  /-- An update sets no column. -/
  | emptyUpdate (table : String)
  /-- A count came back as something else than an integer. -/
  | badCount (found : Option Value)
  /-- A wording from elsewhere. -/
  | stated (text : String)

/-- The wording of a refused operation. -/
def OperationFault.message : OperationFault → String
  | .noColumns table => "table " ++ table ++ " has no columns"
  | .emptyUpdate table => "update of " ++ table ++ " sets no columns"
  | .badCount found => "unexpected count result " ++ Value.displayOption found
  | .stated text => text

/-- **Why the engine refuses a statement.** -/
inductive EngineFault where
  /-- A row was asked for and there is none. -/
  | noRows
  /-- A statement that is run for its effect reads a row. -/
  | readsRows
  /-- A column that must have a value is given none. -/
  | notNull (table column : String)
  /-- Columns that together must tell rows apart are given the same values twice. -/
  | notUnique (table : String) (columns : List String)
  /-- A row identity is set to something else than an integer. -/
  | badIdentity
  /-- A transaction begins inside another one. -/
  | nestedTransaction
  /-- A commit without transaction. -/
  | idleCommit
  /-- A rollback without transaction. -/
  | idleRollback
  /-- A statement that the engine does not know. -/
  | unknownStatement
  /-- A statement that breaks off at a token. -/
  | unexpected (token : String)
  /-- A table that does not exist. -/
  | noSuchTable (table : String)
  /-- A column that does not exist. -/
  | noSuchColumn (column : String)
  /-- A column that does not exist is given a value for a new row. -/
  | noColumnNamed (table column : String)
  /-- A column that does not exist is to refer to another table. -/
  | noReference (column : String)
  /-- A table is defined with two columns of one name. -/
  | repeatedColumn (column : String)
  /-- A table is defined with two primary keys. -/
  | repeatedKey (table : String)
  /-- A name that the engine keeps for itself. -/
  | reservedName (name : String)
  /-- An index is to have the name of a table. -/
  | takenByTable (name : String)
  /-- A table is to have the name of an index. -/
  | takenByIndex (name : String)
  /-- A cause that stands at an offset of a statement. -/
  | located (cause : EngineFault) (sql : String) (offset : Nat)
  deriving DecidableEq, Repr

/-- The wording of a refused statement. -/
def EngineFault.message : EngineFault → String
  | .noRows => "Query returned no rows"
  | .readsRows => "Execute returned results - did you mean to call query?"
  | .notNull table column => "NOT NULL constraint failed: " ++ table ++ "." ++ column
  | .notUnique table columns =>
      "UNIQUE constraint failed: " ++ ", ".intercalate (columns.map fun c => table ++ "." ++ c)
  | .badIdentity => "datatype mismatch"
  | .nestedTransaction => "cannot start a transaction within a transaction"
  | .idleCommit => "cannot commit - no transaction is active"
  | .idleRollback => "cannot rollback - no transaction is active"
  | .unknownStatement => "unknown statement"
  | .unexpected token => "near \"" ++ token ++ "\": syntax error"
  | .noSuchTable table => "no such table: " ++ table
  | .noSuchColumn column => "no such column: " ++ column
  | .noColumnNamed table column => "table " ++ table ++ " has no column named " ++ column
  | .noReference column => "unknown column \"" ++ column ++ "\" in foreign key definition"
  | .repeatedColumn column => "duplicate column name: " ++ column
  | .repeatedKey table => "table \"" ++ table ++ "\" has more than one primary key"
  | .reservedName name => "object name reserved for internal use: " ++ name
  | .takenByTable name => "there is already a table named " ++ name
  | .takenByIndex name => "there is already an index named " ++ name
  | .located cause sql offset => cause.message ++ " in " ++ sql ++ " at offset " ++ toString offset

/-- **A fault.** Scopes are named by their numbers. -/
inductive Fault where
  /-- A scope is started a second time. -/
  | alreadyStarted (scope : Nat)
  /-- A scope that has ended is asked to let someone in. -/
  | scopeEnded (scope : Nat)
  /-- A scope is requested after closing. -/
  | schedulerClosed
  /-- A filter is refused. -/
  | invalidPredicate (cause : PredicateFault)
  /-- A name is no plain identifier. -/
  | invalidIdentifier (name : String)
  /-- An initializer failed with this message. -/
  | initialization (text : String)
  /-- An operation is refused. -/
  | invalidOperation (cause : OperationFault)
  /-- The connection failed. -/
  | connection (text : String)
  /-- The engine refused a statement. -/
  | engine (cause : EngineFault)

/-- **The wording of a fault.** -/
def Fault.message : Fault → String
  | .alreadyStarted scope => "scope " ++ toString scope ++ " has already been started"
  | .scopeEnded scope => "scope " ++ toString scope ++ " has already ended"
  | .schedulerClosed => "scope scheduler is closed"
  | .invalidPredicate cause => "invalid predicate: " ++ cause.message
  | .invalidIdentifier name => "invalid identifier: " ++ Text.quoted name
  | .initialization text => "initialization failed: " ++ text
  | .invalidOperation cause => "invalid operation: " ++ cause.message
  | .connection text => "connection error: " ++ text
  | .engine cause => "SQLite error: " ++ cause.message

/-! ### Steps that may fail -/

section Outcomes

variable {α β : Type} {r : Except Fault α} {b : β}

/-- Two steps have a result if both have one. -/
theorem bind_eq_ok_iff {f : α → Except Fault β} :
    r >>= f = .ok b ↔ ∃ a, r = .ok a ∧ f a = .ok b := by
  cases r with
  | error e => exact ⟨nofun, nofun⟩
  | ok a => exact ⟨fun h => ⟨a, rfl, h⟩, fun ⟨_, ha, h⟩ => Except.ok.inj ha ▸ h⟩

/-- A mapped result is a success exactly if the result was one. -/
theorem map_eq_ok_iff {f : α → β} : r.map f = .ok b ↔ ∃ a, r = .ok a ∧ f a = b := by
  cases r with
  | error e => exact ⟨nofun, nofun⟩
  | ok a => exact ⟨fun h => ⟨a, rfl, Except.ok.inj h⟩, fun ⟨_, ha, h⟩ => by cases ha; rw [← h]; rfl⟩

end Outcomes

end ScopedSql
