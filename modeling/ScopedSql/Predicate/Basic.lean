import ScopedSql.Predicate.Operator
import ScopedSql.Value.Basic

/-!
# Predicates

The filters of statements: comparisons of a column with an operand, joined in groups.
-/

namespace ScopedSql

/-- **What a column is compared with.** -/
inductive Operand where
  /-- A single value. -/
  | scalar (value : Value)
  /-- A list of values. -/
  | list (values : List Value)
  deriving DecidableEq, Repr

/-- The values of an operand, in order. -/
def Operand.values : Operand → List Value
  | .scalar v => [v]
  | .list vs => vs

/-- **A filter**: a comparison, or a group of filters under one connector. -/
inductive Predicate where
  /-- A column compared with an operand. -/
  | comparison (column : String) (operator : Operator) (operand : Operand)
  /-- A group. -/
  | group (connector : Connector) (children : List Predicate)
  deriving Repr

end ScopedSql
