import ScopedSql.Identifier
import ScopedSql.Predicate.Basic
import ScopedSql.Sql.Token

/-!
# WHERE clauses

`Clause.ofPredicate` compiles a filter into a `WHERE` clause whose values are bound to the
placeholders `@whr1`, `@whr2`, … from left to right, so no value becomes part of the text. A group
is written in parentheses with its connector between the parts; a part that compares nothing is
left out, and a filter that compares nothing has no clause at all.
-/

namespace ScopedSql

open Sql (Token)

/-- **A compiled filter.** -/
structure Clause where
  /-- The clause, starting with its keyword; empty when there is nothing to filter by. -/
  tokens : List Token
  /-- The values of its placeholders. -/
  bindings : Bindings

namespace Clause

/-- The clause that filters nothing. -/
def nothing : Clause := ⟨[], NameMap.empty⟩

/-- The text of a clause. -/
def text (c : Clause) : String := Sql.textOf c.tokens

/-- Whether the clause filters nothing. -/
def isEmpty (c : Clause) : Bool := c.tokens.isEmpty

/-- The name of the `n`-th placeholder of a clause. -/
def placeholder (n : Nat) : String := "@whr" ++ toString n

/-- The names of placeholders bound to a list of values, counted from `first`. -/
def bound (first : Nat) (values : List Value) : List (String × Value) :=
  (values.zipIdx first).map fun (v, n) => (placeholder n, v)

end Clause

/-- The tokens of an operator. -/
def Operator.tokens : Operator → List Token
  | .like => [.word "LIKE"]
  | .isIn => [.word "IN"]
  | .notIn => [.word "NOT", .word "IN"]
  | .other text => [.verbatim text]
  | op => [.sign op.sql]

/-- **A piece of a clause**: its tokens, none when it compares nothing, and the values that it
binds in the order of their placeholders. -/
structure Fragment where
  /-- The tokens. -/
  tokens : List Token
  /-- The bound values. -/
  values : List Value
  deriving DecidableEq, Repr

namespace Predicate

/-- The piece of one comparison, with placeholders counted from `next`. The column is checked
before the shape of the operand. -/
def compare (next : Nat) (column : String) (operator : Operator) (operand : Operand) :
    Except Fault Fragment := do
  checkIdentifier column
  match operator.takesList, operand with
  | true, .list values =>
      let names := (Clause.bound next values).map fun b => [Token.placeholder b.1]
      .ok ⟨.word column :: operator.tokens ++ Sql.parenthesized (Sql.commaSeparated names), values⟩
  | true, .scalar _ => .error (.invalidPredicate (.needsList operator column))
  | false, .list _ => .error (.invalidPredicate (.refusesList operator column))
  | false, .scalar value =>
      .ok ⟨.word column :: operator.tokens ++ [.placeholder (Clause.placeholder next)], [value]⟩

mutual

/-- **The piece of a filter**, with placeholders counted from `next`. -/
def fragment (next : Nat) : Predicate → Except Fault Fragment
  | .comparison column operator operand => compare next column operator operand
  | .group connector children =>
      match fragments next children with
      | .error e => .error e
      | .ok ([], values) => .ok ⟨[], values⟩
      | .ok (parts, values) =>
          .ok ⟨Sql.parenthesized (Sql.separated [.word connector.sql] parts), values⟩
termination_by structural p => p

/-- The non-empty pieces of the parts of a group and the values of all of them. -/
def fragments (next : Nat) : List Predicate → Except Fault (List (List Token) × List Value)
  | [] => .ok ([], [])
  | p :: rest =>
      match fragment next p with
      | .error e => .error e
      | .ok f =>
          match fragments (next + f.values.length) rest with
          | .error e => .error e
          | .ok (parts, values) =>
              .ok (if f.tokens.isEmpty then parts else f.tokens :: parts, f.values ++ values)
termination_by structural ps => ps

end

end Predicate

/-- **Compiles a filter.** -/
def Clause.ofPredicate : Option Predicate → Except Fault Clause
  | none => .ok Clause.nothing
  | some p => do
      let f ← p.fragment 1
      if f.tokens.isEmpty then .ok Clause.nothing
      else .ok ⟨.word "WHERE" :: f.tokens, NameMap.ofList (Clause.bound 1 f.values)⟩

end ScopedSql
