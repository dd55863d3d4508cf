import ScopedSql.Predicate.Clause
import ScopedSql.Query.Options

/-!
# Statements on one table

The statements that read and change the rows of one table. Values are always bound: columns of an
insertion to `@col_` and the name of the column, columns of an update to `@set_` and the name, and the
values of the filter to its own placeholders. Names of columns are checked, and columns of a row
are taken in increasing order of name.
-/

namespace ScopedSql

open Sql (Token keywords)

/-- **A statement with its bindings.** -/
structure Statement where
  /-- The tokens of the statement. -/
  tokens : List Token
  /-- The values of its placeholders. -/
  bindings : Bindings

namespace Statement

/-- The SQL text of a statement. -/
def text (s : Statement) : String := Sql.textOf s.tokens

/-- The placeholder of an inserted column. -/
def insertedColumn (column : String) : String := "@col_" ++ column

/-- The placeholder of an updated column. -/
def updatedColumn (column : String) : String := "@set_" ++ column

/-- The columns to read: all of them unless some are named. -/
def projection (columns : Option (List String)) : Except Fault (List Token) :=
  match columns.getD [] with
  | [] => .ok [.star]
  | names => do
      checkIdentifiers names
      .ok (Sql.commaSeparated (names.map fun n => [.word n]))

/-- The order of rows. -/
def ordering (terms : List OrderTerm) : Except Fault (List Token) :=
  match terms with
  | [] => .ok []
  | terms => do
      checkIdentifiers (terms.map OrderTerm.column)
      .ok (keywords ["ORDER", "BY"] ++ Sql.commaSeparated
        (terms.map fun t => [.word t.column, .word (if t.ascending then "ASC" else "DESC")]))

/-- The window of rows. An offset alone comes with the limit that stands for none. -/
def window (limit offset : Option Nat) : List Token :=
  match limit, offset with
  | some l, some o =>
      [.word "LIMIT", .number (toString l), .word "OFFSET", .number (toString o)]
  | some l, none => [.word "LIMIT", .number (toString l)]
  | none, some o => [.word "LIMIT", .number "-1", .word "OFFSET", .number (toString o)]
  | none, none => []

/-- **Reads rows.** -/
def select (table : String) (filter : Clause) (options : SelectOptions) : Except Fault Statement := do
  let columns ← projection options.columns
  let order ← ordering options.orderBy
  .ok ⟨[.word "SELECT"] ++ columns ++ [.word "FROM", .word table] ++ filter.tokens ++ order
    ++ window options.limit options.offset, filter.bindings⟩

/-- **Counts rows.** -/
def count (table : String) (filter : Clause) : Statement :=
  ⟨[.word "SELECT", .countAll, .word "AS", .word "count", .word "FROM", .word table]
    ++ filter.tokens, filter.bindings⟩

/-- **Inserts a row.** -/
def insert (table : String) (row : Row) : Except Fault Statement := do
  checkIdentifiers row.names
  if row.isEmpty then
    .ok ⟨keywords ["INSERT", "INTO"] ++ [.word table] ++ keywords ["DEFAULT", "VALUES"],
      NameMap.empty⟩
  else
    .ok ⟨keywords ["INSERT", "INTO"] ++ [.word table] ++ Sql.nameList row.names
        ++ [.word "VALUES"] ++ Sql.parenthesized (Sql.commaSeparated
          (row.names.map fun c => [.placeholder (insertedColumn c)])),
      NameMap.ofList (row.entries.map fun e => (insertedColumn e.1, e.2))⟩

/-- **Changes rows.** -/
def update (table : String) (row : Row) (filter : Clause) : Except Fault Statement := do
  checkIdentifiers row.names
  if row.isEmpty then .error (.invalidOperation (.emptyUpdate table))
  else
    .ok ⟨[.word "UPDATE", .word table, .word "SET"] ++ Sql.commaSeparated
          (row.names.map fun c => [.word c, .sign "=", .placeholder (updatedColumn c)])
        ++ filter.tokens,
      (NameMap.ofList (row.entries.map fun e => (updatedColumn e.1, e.2))).extend filter.bindings⟩

/-- **Removes rows.** -/
def delete (table : String) (filter : Clause) : Statement :=
  ⟨[.word "DELETE", .word "FROM", .word table] ++ filter.tokens, filter.bindings⟩

end Statement

end ScopedSql
