import ScopedSql.Scope.Basic

/-!
# Options of reads

What a read may say besides its filter. Options given with a call are merged over those of the
table.
-/

namespace ScopedSql

/-- **One term of an order**: a column and its direction. -/
structure OrderTerm where
  /-- The column. -/
  column : String
  /-- Whether values increase. -/
  ascending : Bool
  deriving DecidableEq, Repr

/-- **The options of a read.** No list of columns, like the empty one, means all columns. -/
structure SelectOptions where
  /-- The columns to read. -/
  columns : Option (List String) := none
  /-- The order of rows. -/
  orderBy : List OrderTerm := []
  /-- The greatest number of rows. -/
  limit : Option Nat := none
  /-- How many rows to leave out first. -/
  offset : Option Nat := none
  /-- The scope to wait for. -/
  scope : Option ScopeId := none
  deriving DecidableEq, Repr, Inhabited

/-- **Merging options**: what the second ones give counts. -/
def SelectOptions.merge (defaults overrides : SelectOptions) : SelectOptions where
  columns := overrides.columns.or defaults.columns
  orderBy := if overrides.orderBy.isEmpty then defaults.orderBy else overrides.orderBy
  limit := overrides.limit.or defaults.limit
  offset := overrides.offset.or defaults.offset
  scope := overrides.scope.or defaults.scope

end ScopedSql
