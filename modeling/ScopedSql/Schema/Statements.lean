import ScopedSql.Identifier
import ScopedSql.Schema.Basic
import ScopedSql.Sql.Token

/-!
# The statements of a schema

`Schema.statements` writes a schema as `CREATE` statements: each table, directly followed by its
indexes. Every name is checked before it is written. A text default is a literal with its quotes
doubled.
-/

namespace ScopedSql

open Sql (Token keywords)

/-- The keyword of a type. -/
def DataType.sql : DataType → String
  | .integer => "INTEGER"
  | .text => "TEXT"
  | .real => "REAL"
  | .blob => "BLOB"

/-- The keywords of a constraint. -/
def ColumnConstraint.tokens : ColumnConstraint → List Token
  | .primaryKey => keywords ["PRIMARY", "KEY"]
  | .notNull => keywords ["NOT", "NULL"]
  | .unique => keywords ["UNIQUE"]

/-- The token of a default. -/
def DefaultValue.token : DefaultValue → Token
  | .integer n => .number (toString n.toInt)
  | .text s => .literal s
  | .real x => .number (realLayout.render x)
  | .null => .word "NULL"
  | .currentTimestamp => .word "CURRENT_TIMESTAMP"

/-- The keywords of an action. -/
def ForeignKeyAction.tokens : ForeignKeyAction → List Token
  | .noAction => keywords ["NO", "ACTION"]
  | .cascade => keywords ["CASCADE"]
  | .setNull => keywords ["SET", "NULL"]
  | .setDefault => keywords ["SET", "DEFAULT"]
  | .restrict => keywords ["RESTRICT"]

/-- A column: name, type, constraints and default. -/
def ColumnDefinition.tokens (c : ColumnDefinition) : Except Fault (List Token) := do
  checkIdentifier c.name
  let default := match c.default? with
    | none => []
    | some d => [.word "DEFAULT", d.token]
  .ok ([.word c.name, .word c.dataType.sql] ++ c.constraints.flatMap ColumnConstraint.tokens ++ default)

/-- A reference to another table. -/
def ForeignKey.tokens (k : ForeignKey) : Except Fault (List Token) := do
  checkIdentifiers [k.column, k.foreignTable, k.foreignColumn]
  .ok (keywords ["FOREIGN", "KEY"] ++ Sql.nameList [k.column]
    ++ [.word "REFERENCES", .word k.foreignTable] ++ Sql.nameList [k.foreignColumn]
    ++ keywords ["ON", "DELETE"] ++ k.onDelete.tokens
    ++ keywords ["ON", "UPDATE"] ++ k.onUpdate.tokens)

/-- The primary key of a table, when it is declared for the table. -/
def TableDefinition.primaryKeyTokens (t : TableDefinition) : Except Fault (List (List Token)) := do
  if t.primaryKey.isEmpty then .ok []
  else
    checkIdentifiers t.primaryKey
    .ok [keywords ["PRIMARY", "KEY"] ++ Sql.nameList t.primaryKey]

/-- **The statement that creates a table.** -/
def TableDefinition.tokens (t : TableDefinition) : Except Fault (List Token) := do
  checkIdentifier t.name
  if t.columns.isEmpty then .error (.invalidOperation (.noColumns t.name))
  else
    let columns ← t.columns.mapM ColumnDefinition.tokens
    let primaryKey ← t.primaryKeyTokens
    let foreignKeys ← t.foreignKeys.mapM ForeignKey.tokens
    .ok (keywords ["CREATE", "TABLE", "IF", "NOT", "EXISTS"] ++ [.word t.name]
      ++ Sql.parenthesized (Sql.commaSeparated (columns ++ primaryKey ++ foreignKeys)))

/-- **The statement that creates an index** on a table. -/
def IndexDefinition.tokens (table : String) (i : IndexDefinition) : Except Fault (List Token) := do
  checkIdentifier i.name
  checkIdentifiers i.columns
  .ok ([.word "CREATE"] ++ (if i.unique then [.word "UNIQUE"] else [])
    ++ keywords ["INDEX", "IF", "NOT", "EXISTS"] ++ [.word i.name]
    ++ [.word "ON", .word table] ++ Sql.nameList i.columns)

/-- The statements of a table: the table, then its indexes. -/
def TableDefinition.statements (t : TableDefinition) : Except Fault (List (List Token)) := do
  let table ← t.tokens
  let indexes ← t.indexes.mapM (IndexDefinition.tokens t.name)
  .ok (table :: indexes)

/-- **The statements of a schema** as tokens. -/
def Schema.statements (s : Schema) : Except Fault (List (List Token)) := do
  let tables ← s.tables.mapM TableDefinition.statements
  .ok tables.flatten

/-- The SQL texts of a schema. -/
def Schema.texts (s : Schema) : Except Fault (List String) :=
  s.statements.map fun ts => ts.map Sql.textOf

end ScopedSql
