import ScopedSql.Value.Basic

/-!
# Schemas

The definitions of tables, with columns, keys and indexes, that a database is opened with.
-/

namespace ScopedSql

/-- **The type of a column.** -/
inductive DataType where
  /-- Integers. -/
  | integer
  /-- Texts. -/
  | text
  /-- Doubles. -/
  | real
  /-- Raw bytes. -/
  | blob
  deriving DecidableEq, Repr

/-- **A constraint on one column.** -/
inductive ColumnConstraint where
  /-- The column identifies the row. -/
  | primaryKey
  /-- The column always has a value. -/
  | notNull
  /-- No two rows have the same value. -/
  | unique
  deriving DecidableEq, Repr

/-- **The value of a column that a row does not give.** -/
inductive DefaultValue where
  /-- An integer. -/
  | integer (n : Int64)
  /-- A text. -/
  | text (s : String)
  /-- A double. -/
  | real (x : Binary64)
  /-- The absent value. -/
  | null
  /-- The time of the insertion. -/
  | currentTimestamp
  deriving DecidableEq, Repr

/-- **A column.** -/
structure ColumnDefinition where
  /-- Its name. -/
  name : String
  /-- Its type. -/
  dataType : DataType
  /-- Its constraints. -/
  constraints : List ColumnConstraint
  /-- Its default. -/
  default? : Option DefaultValue
  deriving DecidableEq, Repr

/-- **What happens to a row when the row that it refers to goes.** -/
inductive ForeignKeyAction where
  /-- Nothing. -/
  | noAction
  /-- The row goes too. -/
  | cascade
  /-- The reference becomes absent. -/
  | setNull
  /-- The reference becomes the default. -/
  | setDefault
  /-- The other row stays. -/
  | restrict
  deriving DecidableEq, Repr

/-- **A reference to another table.** -/
structure ForeignKey where
  /-- The column that refers. -/
  column : String
  /-- The table referred to. -/
  foreignTable : String
  /-- The column referred to. -/
  foreignColumn : String
  /-- What follows a deletion. -/
  onDelete : ForeignKeyAction
  /-- What follows an update. -/
  onUpdate : ForeignKeyAction
  deriving DecidableEq, Repr

/-- **An index.** -/
structure IndexDefinition where
  /-- Its name. -/
  name : String
  /-- The indexed columns. -/
  columns : List String
  /-- Whether no two rows agree on the columns. -/
  unique : Bool
  deriving DecidableEq, Repr

/-- **A table.** -/
structure TableDefinition where
  /-- Its name. -/
  name : String
  /-- Its columns. -/
  columns : List ColumnDefinition
  /-- The columns of its primary key, none unless the key is declared for the table. -/
  primaryKey : List String
  /-- Its references. -/
  foreignKeys : List ForeignKey
  /-- Its indexes. -/
  indexes : List IndexDefinition
  deriving DecidableEq, Repr

/-- **A schema**: tables in the order in which they are created. -/
structure Schema where
  /-- The tables. -/
  tables : List TableDefinition
  deriving DecidableEq, Repr

end ScopedSql
