import ScopedSql.Database.Engine
import ScopedSql.Store.Change
import ScopedSql.Store.Query

/-!
# The engine in memory

A `Store` holds tables and runs commands. A transaction keeps the tables as they were when it began,
so a rollback only puts them back. A command that fails changes nothing but the number of changed
rows, which is zero after an insertion, update or deletion that failed.
-/

namespace ScopedSql

/-- **A store** on one connection. -/
structure Store where
  /-- The tables in order of creation. -/
  tables : List StoredTable
  /-- The tables at the beginning of the open transaction. -/
  saved : Option (List StoredTable)
  /-- The identity of the row that was inserted last. -/
  lastRowid : Int64
  /-- The number of rows that the last insertion, update or deletion changed. -/
  lastChanges : Nat

namespace Store

/-- The empty store. -/
def empty : Store := ⟨[], none, 0, 0⟩

/-- A table by its name. -/
def table? (s : Store) (name : String) : Option StoredTable :=
  s.tables.find? fun t => sameName t.name name

/-- Whether there is an index of a name. -/
def hasIndex (s : Store) (name : String) : Bool :=
  s.tables.any fun t => t.definition.indexes.any fun i => sameName i.name name

/-- The table that a command names. -/
def table (s : Store) (name : String) : Except EngineFault StoredTable :=
  match s.table? name with
  | some t => .ok t
  | none => .error (.noSuchTable name)

/-- The store with one table changed. -/
def setTable (s : Store) (t : StoredTable) : Store :=
  { s with tables := s.tables.map fun o => if o.name == t.name then t else o }

/-- A bound value as it is stored: absent if the placeholder is not bound, and absent for a NaN,
which the engine does not keep. -/
def boundValue (bindings : Bindings) (placeholder : String) : Stored :=
  match bindings.get? placeholder with
  | none => .null
  | some (.real x) => if x.isNaN then .null else .real x
  | some v => v.toStored

/-- What is given to the slots of a table. -/
def given (t : StoredTable) (bindings : Bindings) (assignments : List (String × String)) : Given :=
  assignments.filterMap fun (column, p) => (t.slot? column).map fun s => (s, boundValue bindings p)

/-- Inserts a row into a table. -/
def insert (s : Store) (bindings : Bindings) (table : String) (assignments : List (String × String)) :
    Except EngineFault Store := do
  let t ← s.table table
  let (t, rowid) ← t.insert (given t bindings assignments)
  .ok { s.setTable t with lastRowid := rowid, lastChanges := 1 }

/-- **Runs a command**: the store after it and the rows that it reads. -/
def execute (s : Store) (bindings : Bindings) : Sql.Command → Except EngineFault (Store × List Row)
  | .createTable definition =>
      if (s.table? definition.name).isSome then .ok (s, [])
      else .ok ({ s with tables := s.tables ++ [⟨definition, []⟩] }, [])
  | .createIndex table index => do
      let t ← s.table table
      if s.hasIndex index.name then .ok (s, [])
      else
        let t ← t.addIndex index
        .ok (s.setTable t, [])
  | .insert table columns placeholders => do
      let s ← s.insert bindings table (columns.zip placeholders)
      .ok (s, [])
  | .insertDefaults table => do
      let s ← s.insert bindings table []
      .ok (s, [])
  | .update table assignments condition => do
      let t ← s.table table
      let found := t.matching (boundValue bindings) condition
      let t ← t.update (given t bindings assignments) found
      .ok ({ s.setTable t with lastChanges := found.length }, [])
  | .delete table condition => do
      let t ← s.table table
      let found := t.matching (boundValue bindings) condition
      .ok ({ s.setTable (t.delete found) with lastChanges := found.length }, [])
  | .select q => do
      let t ← s.table q.table
      .ok (s, t.query (boundValue bindings) q)
  | .begin =>
      if s.saved.isSome then .error .nestedTransaction
      else .ok ({ s with saved := some s.tables }, [])
  | .commit =>
      if s.saved.isSome then .ok ({ s with saved := none }, []) else .error .idleCommit
  | .rollback =>
      match s.saved with
      | some tables => .ok ({ s with tables, saved := none }, [])
      | none => .error .idleRollback

/-- The store after a command that failed. -/
def failed (s : Store) : Sql.Command → Store
  | .insert _ _ _ => { s with lastChanges := 0 }
  | .insertDefaults _ => { s with lastChanges := 0 }
  | .update _ _ _ => { s with lastChanges := 0 }
  | .delete _ _ => { s with lastChanges := 0 }
  | _ => s

end Store

end ScopedSql
