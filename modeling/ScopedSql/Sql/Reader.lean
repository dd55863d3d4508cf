import ScopedSql.Json.Reader
import ScopedSql.Sql.Command
import ScopedSql.Sql.Lexer

/-!
# Reading SQL commands

A reader for the SQL that this library writes. Functions take what they read from the front of a
list of tokens and return the rest. Keywords are known by their place, never by their spelling
alone, so a column may be spelled like a keyword. Groups of conditions are always in parentheses and
have one connector, so no precedence is needed.
-/

namespace ScopedSql.Sql

/-- The tokens after a given beginning. -/
def expect? (front : List Token) (ts : List Token) : Option (List Token) :=
  match front, ts with
  | [], ts => some ts
  | _ :: _, [] => none
  | f :: front, t :: ts => if f = t then expect? front ts else none

/-- Words separated by commas, at least one. -/
def readWords? : List Token → Option (List String × List Token)
  | .word w :: .comma :: rest => (readWords? rest).map fun (ws, rest) => (w :: ws, rest)
  | .word w :: rest => some ([w], rest)
  | _ => none

/-- Placeholders separated by commas up to the closing parenthesis; there may be none. -/
def readPlaceholders? : List Token → Option (List String × List Token)
  | .closing :: rest => some ([], rest)
  | .placeholder p :: .closing :: rest => some ([p], rest)
  | .placeholder p :: .comma :: rest =>
      (readPlaceholders? rest).map fun (ps, rest) => (p :: ps, rest)
  | _ => none

/-- Words in parentheses. -/
def readNameList? (ts : List Token) : Option (List String × List Token) := do
  let ts ← expect? [.opening] ts
  let (names, ts) ← readWords? ts
  let ts ← expect? [.closing] ts
  some (names, ts)

/-! ### Conditions -/

/-- The connector of a keyword. -/
def connector? : Token → Option Connector
  | .word "AND" => some .and
  | .word "OR" => some .or
  | _ => none

/-- The operator of a comparison sign. -/
def signOperator? : String → Option Operator
  | "=" => some .eq
  | "!=" => some .notEq
  | ">" => some .gt
  | ">=" => some .ge
  | "<" => some .lt
  | "<=" => some .le
  | _ => none

mutual

/-- **A condition**, with fuel for its parentheses and parts. -/
def readCondition? : Nat → List Token → Option (Condition × List Token)
  | 0, _ => none
  | fuel + 1, ts =>
      match ts with
      | .opening :: rest => do
          let (first, rest) ← readCondition? fuel rest
          match rest with
          | .closing :: rest => some (.single first, rest)
          | t :: rest => do
              let c ← connector? t
              let (second, rest) ← readCondition? fuel rest
              let (more, rest) ← readParts? fuel c rest
              some (.joined c first second more, rest)
          | [] => none
      | .word column :: .sign s :: .placeholder p :: rest =>
          (signOperator? s).map fun op => (.compare column op p, rest)
      | .word column :: .word "LIKE" :: .placeholder p :: rest =>
          some (.compare column .like p, rest)
      | .word column :: .word "IN" :: .opening :: rest =>
          (readPlaceholders? rest).map fun (ps, rest) => (.among column false ps, rest)
      | .word column :: .word "NOT" :: .word "IN" :: .opening :: rest =>
          (readPlaceholders? rest).map fun (ps, rest) => (.among column true ps, rest)
      | _ => none

/-- The further parts of a group up to its closing parenthesis. -/
def readParts? : Nat → Connector → List Token → Option (List Condition × List Token)
  | 0, _, _ => none
  | fuel + 1, c, ts =>
      match ts with
      | .closing :: rest => some ([], rest)
      | t :: rest =>
          if connector? t = some c then do
            let (first, rest) ← readCondition? fuel rest
            let (more, rest) ← readParts? fuel c rest
            some (first :: more, rest)
          else none
      | [] => none

end

/-- The condition after `WHERE`, if there is one. -/
def readWhere? (ts : List Token) : Option (Option Condition × List Token) :=
  match ts with
  | .word "WHERE" :: rest =>
      (readCondition? (rest.length + 1) rest).map fun (c, rest) => (some c, rest)
  | ts => some (none, ts)

/-! ### Queries -/

/-- What a query reads, up to `FROM`. -/
def readProjection? : List Token → Option (Projection × List Token)
  | .star :: rest => some (.all, rest)
  | .countAll :: .word "AS" :: .word name :: rest => some (.count name, rest)
  | ts => (readWords? ts).map fun (names, rest) => (.columns names, rest)

/-- Terms of an order, at least one. A term without direction is ascending. -/
def readOrderTerms? : List Token → Option (List OrderTerm × List Token)
  | .word column :: .word "ASC" :: .comma :: rest =>
      (readOrderTerms? rest).map fun (terms, rest) => (⟨column, true⟩ :: terms, rest)
  | .word column :: .word "DESC" :: .comma :: rest =>
      (readOrderTerms? rest).map fun (terms, rest) => (⟨column, false⟩ :: terms, rest)
  | .word column :: .comma :: rest =>
      (readOrderTerms? rest).map fun (terms, rest) => (⟨column, true⟩ :: terms, rest)
  | .word column :: .word "ASC" :: rest => some ([⟨column, true⟩], rest)
  | .word column :: .word "DESC" :: rest => some ([⟨column, false⟩], rest)
  | .word column :: rest => some ([⟨column, true⟩], rest)
  | _ => none

/-- The order of a query, if it has one. -/
def readOrder? (ts : List Token) : Option (List OrderTerm × List Token) :=
  match ts with
  | .word "ORDER" :: .word "BY" :: rest => readOrderTerms? rest
  | ts => some ([], ts)

/-- A whole number. -/
def readInteger? (text : String) : Option Int :=
  match Json.readNumber? text.toList with
  | some (.whole n, []) => some n.value
  | _ => none

/-- The window of a query, if it has one. -/
def readWindow? (ts : List Token) : Option (Option Int × Nat × List Token) :=
  match ts with
  | .word "LIMIT" :: .number limit :: .word "OFFSET" :: .number offset :: rest => do
      let limit ← readInteger? limit
      let offset ← readInteger? offset
      some (some limit, offset.toNat, rest)
  | .word "LIMIT" :: .number limit :: rest => do
      let limit ← readInteger? limit
      some (some limit, 0, rest)
  | ts => some (none, 0, ts)

/-- A query after `SELECT`. -/
def readQuery? (ts : List Token) : Option (Query × List Token) := do
  let (projection, ts) ← readProjection? ts
  let ts ← expect? [.word "FROM"] ts
  match ts with
  | .word table :: ts => do
      let (condition, ts) ← readWhere? ts
      let (orderBy, ts) ← readOrder? ts
      let (limit, offset, ts) ← readWindow? ts
      some ({ projection, table, condition, orderBy, limit, offset }, ts)
  | _ => none

/-! ### Changes -/

/-- Assignments of an update, at least one. -/
def readAssignments? : List Token → Option (List (String × String) × List Token)
  | .word column :: .sign "=" :: .placeholder p :: .comma :: rest =>
      (readAssignments? rest).map fun (more, rest) => ((column, p) :: more, rest)
  | .word column :: .sign "=" :: .placeholder p :: rest => some ([(column, p)], rest)
  | _ => none

/-- An insertion after its table. -/
def readInsert? (table : String) (ts : List Token) : Option (Command × List Token) :=
  match ts with
  | .word "DEFAULT" :: .word "VALUES" :: rest => some (.insertDefaults table, rest)
  | ts => do
      let (columns, ts) ← readNameList? ts
      let ts ← expect? [.word "VALUES", .opening] ts
      let (placeholders, ts) ← readPlaceholders? ts
      some (.insert table columns placeholders, ts)

/-! ### Definitions -/

/-- The type of a keyword. -/
def dataType? : String → Option DataType
  | "INTEGER" => some .integer
  | "TEXT" => some .text
  | "REAL" => some .real
  | "BLOB" => some .blob
  | _ => none

/-- The constraints of a column. -/
def readConstraints? : List Token → Option (List ColumnConstraint × List Token)
  | .word "PRIMARY" :: .word "KEY" :: rest =>
      (readConstraints? rest).map fun (cs, rest) => (.primaryKey :: cs, rest)
  | .word "NOT" :: .word "NULL" :: rest =>
      (readConstraints? rest).map fun (cs, rest) => (.notNull :: cs, rest)
  | .word "UNIQUE" :: rest =>
      (readConstraints? rest).map fun (cs, rest) => (.unique :: cs, rest)
  | ts => some ([], ts)

/-- The default that a number stands for: an integer where a signed word holds it, else a double. -/
def numberDefault? (text : String) : Option DefaultValue :=
  match Json.readNumber? text.toList with
  | some (.whole n, []) =>
      if n.value ≤ Int64.maxValue.toInt then some (.integer (Int64.ofInt n.value))
      else some (.real (Binary64.ofInt n.value))
  | some (.real x, []) => some (.real x)
  | _ => none

/-- The default of a column, if it has one. A word that means nothing else is a text. -/
def readDefault? (ts : List Token) : Option (Option DefaultValue × List Token) :=
  match ts with
  | .word "DEFAULT" :: .number text :: rest =>
      (numberDefault? text).map fun d => (some d, rest)
  | .word "DEFAULT" :: .literal s :: rest => some (some (.text s), rest)
  | .word "DEFAULT" :: .word "NULL" :: rest => some (some .null, rest)
  | .word "DEFAULT" :: .word "CURRENT_TIMESTAMP" :: rest => some (some .currentTimestamp, rest)
  | .word "DEFAULT" :: .word text :: rest => some (some (.text text), rest)
  | .word "DEFAULT" :: _ => none
  | ts => some (none, ts)

/-- The action of keywords. -/
def readAction? : List Token → Option (ForeignKeyAction × List Token)
  | .word "NO" :: .word "ACTION" :: rest => some (.noAction, rest)
  | .word "CASCADE" :: rest => some (.cascade, rest)
  | .word "SET" :: .word "NULL" :: rest => some (.setNull, rest)
  | .word "SET" :: .word "DEFAULT" :: rest => some (.setDefault, rest)
  | .word "RESTRICT" :: rest => some (.restrict, rest)
  | _ => none

/-- A reference after its keywords. -/
def readForeignKey? (ts : List Token) : Option (ForeignKey × List Token) := do
  match ts with
  | .opening :: .word column :: .closing :: .word "REFERENCES" :: .word foreignTable :: .opening ::
      .word foreignColumn :: .closing :: .word "ON" :: .word "DELETE" :: rest => do
      let (onDelete, rest) ← readAction? rest
      let rest ← expect? [.word "ON", .word "UPDATE"] rest
      let (onUpdate, rest) ← readAction? rest
      some (⟨column, foreignTable, foreignColumn, onDelete, onUpdate⟩, rest)
  | _ => none

/-- **One part of a table definition.** -/
inductive TablePart where
  /-- A column. -/
  | column (c : ColumnDefinition)
  /-- The primary key. -/
  | primaryKey (names : List String)
  /-- A reference. -/
  | foreignKey (k : ForeignKey)

/-- One part of a table definition. A name and its type make a column; a type is no keyword of a
constraint. -/
def readTablePart? (ts : List Token) : Option (TablePart × List Token) :=
  match ts with
  | .word "PRIMARY" :: .word "KEY" :: rest =>
      (readNameList? rest).map fun (names, rest) => (.primaryKey names, rest)
  | .word "FOREIGN" :: .word "KEY" :: rest =>
      (readForeignKey? rest).map fun (k, rest) => (.foreignKey k, rest)
  | .word name :: .word type :: rest => do
      let dataType ← dataType? type
      let (constraints, rest) ← readConstraints? rest
      let (default?, rest) ← readDefault? rest
      some (.column { name, dataType, constraints, default? }, rest)
  | _ => none

/-- The parts of a table definition up to its closing parenthesis, with fuel for each part. -/
def readTableParts? : Nat → List Token → Option (List TablePart × List Token)
  | 0, _ => none
  | fuel + 1, ts => do
      let (part, ts) ← readTablePart? ts
      match ts with
      | .comma :: ts => do
          let (more, ts) ← readTableParts? fuel ts
          some (part :: more, ts)
      | .closing :: ts => some ([part], ts)
      | _ => none

/-- The table of its parts. -/
def assembleTable (name : String) (parts : List TablePart) : TableDefinition where
  name := name
  columns := parts.filterMap fun p => match p with
    | .column c => some c
    | _ => none
  primaryKey := parts.flatMap fun p => match p with
    | .primaryKey names => names
    | _ => []
  foreignKeys := parts.filterMap fun p => match p with
    | .foreignKey k => some k
    | _ => none
  indexes := []

/-- A table definition after its keywords. -/
def readTable? (ts : List Token) : Option (TableDefinition × List Token) :=
  match ts with
  | .word name :: .opening :: rest =>
      (readTableParts? rest.length rest).map fun (parts, rest) => (assembleTable name parts, rest)
  | _ => none

/-- An index definition after its keywords, with its table. -/
def readIndex? (unique : Bool) (ts : List Token) :
    Option (String × IndexDefinition × List Token) :=
  match ts with
  | .word name :: .word "ON" :: .word table :: rest =>
      (readNameList? rest).map fun (columns, rest) => (table, ⟨name, columns, unique⟩, rest)
  | _ => none

/-! ### Commands -/

/-- The command at the front of a list of tokens. -/
def readFront? (ts : List Token) : Option (Command × List Token) :=
  match ts with
  | .word "CREATE" :: .word "TABLE" :: .word "IF" :: .word "NOT" :: .word "EXISTS" :: rest =>
      (readTable? rest).map fun (t, rest) => (.createTable t, rest)
  | .word "CREATE" :: .word "INDEX" :: .word "IF" :: .word "NOT" :: .word "EXISTS" :: rest =>
      (readIndex? false rest).map fun (t, i, rest) => (.createIndex t i, rest)
  | .word "CREATE" :: .word "UNIQUE" :: .word "INDEX" :: .word "IF" :: .word "NOT" ::
      .word "EXISTS" :: rest =>
      (readIndex? true rest).map fun (t, i, rest) => (.createIndex t i, rest)
  | .word "INSERT" :: .word "INTO" :: .word table :: rest => readInsert? table rest
  | .word "UPDATE" :: .word table :: .word "SET" :: rest => do
      let (assignments, rest) ← readAssignments? rest
      let (condition, rest) ← readWhere? rest
      some (.update table assignments condition, rest)
  | .word "DELETE" :: .word "FROM" :: .word table :: rest =>
      (readWhere? rest).map fun (condition, rest) => (.delete table condition, rest)
  | .word "SELECT" :: rest => (readQuery? rest).map fun (q, rest) => (.select q, rest)
  | .word "BEGIN" :: rest => some (.begin, rest)
  | .word "COMMIT" :: rest => some (.commit, rest)
  | .word "ROLLBACK" :: rest => some (.rollback, rest)
  | _ => none

/-- **The command of a list of tokens**, all of which it takes. -/
def readCommand? (ts : List Token) : Option Command :=
  match readFront? ts with
  | some (c, []) => some c
  | _ => none

/-- **The command of an SQL text.** -/
def parse? (sql : String) : Option Command :=
  (lex sql.toList).bind readCommand?

end ScopedSql.Sql
