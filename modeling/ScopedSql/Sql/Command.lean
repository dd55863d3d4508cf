import ScopedSql.Predicate.Operator
import ScopedSql.Query.Options
import ScopedSql.Schema.Basic

/-!
# SQL commands

What a statement says, once its text is read. Values stand behind placeholders.
-/

namespace ScopedSql.Sql

/-- **A condition** on the rows of a table. -/
inductive Condition where
  /-- A column compared with a placeholder. -/
  | compare (column : String) (operator : Operator) (placeholder : String)
  /-- A column and a list of placeholders, among which it is or is not. -/
  | among (column : String) (negated : Bool) (placeholders : List String)
  /-- A condition in parentheses. -/
  | single (inner : Condition)
  /-- Two or more conditions in parentheses, joined by one connector. -/
  | joined (connector : Connector) (first second : Condition) (more : List Condition)
  deriving Repr

/-- **What a query reads.** -/
inductive Projection where
  /-- All columns. -/
  | all
  /-- Some columns. -/
  | columns (names : List String)
  /-- The number of rows, under a name. -/
  | count (name : String)
  deriving DecidableEq, Repr

/-- The columns that are named for reading. -/
def Projection.names : Projection → List String
  | .columns names => names
  | _ => []

/-- **A query** on one table. -/
structure Query where
  /-- What it reads. -/
  projection : Projection
  /-- The table. -/
  table : String
  /-- Which rows. -/
  condition : Option Condition
  /-- In which order. -/
  orderBy : List OrderTerm
  /-- The greatest number of rows; a negative one is no limit. -/
  limit : Option Int
  /-- How many rows to leave out first. -/
  offset : Nat

/-- **A command.** -/
inductive Command where
  /-- Creates a table, unless there is one of its name. -/
  | createTable (table : TableDefinition)
  /-- Creates an index on a table, unless there is one of its name. -/
  | createIndex (table : String) (index : IndexDefinition)
  /-- Inserts a row that gives some columns. -/
  | insert (table : String) (columns placeholders : List String)
  /-- Inserts a row of defaults. -/
  | insertDefaults (table : String)
  /-- Changes columns of rows. -/
  | update (table : String) (assignments : List (String × String)) (condition : Option Condition)
  /-- Removes rows. -/
  | delete (table : String) (condition : Option Condition)
  /-- Reads rows. -/
  | select (query : Query)
  /-- Opens a transaction. -/
  | begin
  /-- Keeps the changes of a transaction. -/
  | commit
  /-- Drops the changes of a transaction. -/
  | rollback

end ScopedSql.Sql
