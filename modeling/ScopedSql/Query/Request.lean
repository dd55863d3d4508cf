import ScopedSql.Database.Engine
import ScopedSql.Query.Statement

/-!
# Requests to a table

A table has a name and default options for its reads. A request becomes a plan: one engine call and
the scope that it waits for. Everything that can be wrong with a request shows while it is
planned, the filter first and the columns after it.
-/

namespace ScopedSql

/-- **A table** of a database. -/
structure Table where
  /-- Its name. -/
  name : String
  /-- The options of reads that do not say otherwise. -/
  defaults : SelectOptions
  deriving DecidableEq

/-- A table whose name is a plain identifier. -/
def Table.open? (name : String) (defaults : SelectOptions) : Except Fault Table := do
  checkIdentifier name
  .ok ⟨name, defaults⟩

/-- **A request** to a table. -/
inductive Request where
  /-- Rows. -/
  | select (filter : Option Predicate) (options : SelectOptions)
  /-- The first row. -/
  | selectOne (filter : Option Predicate) (options : SelectOptions)
  /-- The number of rows. -/
  | count (filter : Option Predicate) (scope : Option ScopeId)
  /-- A new row. -/
  | insert (row : Row) (scope : Option ScopeId)
  /-- Changed rows. -/
  | update (row : Row) (filter : Option Predicate) (scope : Option ScopeId)
  /-- Removed rows. -/
  | delete (filter : Option Predicate) (scope : Option ScopeId)

/-- The scope that a request is given. -/
def Request.scope : Request → Option ScopeId
  | .select _ options => options.scope
  | .selectOne _ options => options.scope
  | .count _ s => s
  | .insert _ s => s
  | .update _ _ s => s
  | .delete _ s => s

/-- **What a request comes to**: one call, and the scope to wait for. -/
structure Plan where
  /-- What is asked of the statement. -/
  verb : Verb
  /-- The statement. -/
  statement : Statement
  /-- Whether the row is a count. -/
  counting : Bool
  /-- The scope to wait for, the current community scope if there is none. -/
  target : Option ScopeId

/-- **Plans a request.** Options of reads are merged over those of the table; all other requests
wait for the scope that they are given. -/
def Request.plan (t : Table) : Request → Except Fault Plan
  | .select filter options => do
      let options := t.defaults.merge options
      let clause ← Clause.ofPredicate filter
      let statement ← Statement.select t.name clause options
      .ok ⟨.all, statement, false, options.scope⟩
  | .selectOne filter options => do
      let options := { t.defaults.merge options with limit := some 1 }
      let clause ← Clause.ofPredicate filter
      let statement ← Statement.select t.name clause options
      .ok ⟨.get, statement, false, options.scope⟩
  | .count filter scope => do
      let clause ← Clause.ofPredicate filter
      .ok ⟨.get, Statement.count t.name clause, true, scope⟩
  | .insert row scope => do
      let statement ← Statement.insert t.name row
      .ok ⟨.run, statement, false, scope⟩
  | .update row filter scope => do
      let clause ← Clause.ofPredicate filter
      let statement ← Statement.update t.name row clause
      .ok ⟨.run, statement, false, scope⟩
  | .delete filter scope => do
      let clause ← Clause.ofPredicate filter
      .ok ⟨.run, Statement.delete t.name clause, false, scope⟩

/-- What a planned call ends with. -/
def Plan.read (verb : Verb) (counting : Bool) (r : Response) : Except Fault Outcome :=
  if counting then readCount r.row else .ok (verb.read r)

end ScopedSql
