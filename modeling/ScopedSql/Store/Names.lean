import ScopedSql.Sql.Position
import ScopedSql.Store.Engine

/-!
# Looking names up

Before a command is run, each of its names has to stand for something, and each name that it defines
has to be free. The first name that fails is told, in most clauses with its offset in the statement.
-/

namespace ScopedSql

open Sql (Token keywords)

/-! ### The names of a condition -/

mutual

/-- Whether a condition is false of all rows by its form: nothing is among no values. -/
def Sql.Condition.isNever : Sql.Condition → Bool
  | .compare _ _ _ => false
  | .among _ negated placeholders => !negated && placeholders.isEmpty
  | .single inner => inner.isNever
  | .joined .and first second more => first.isNever || second.isNever || anyNever more
  | .joined .or _ _ _ => false
termination_by structural c => c

/-- Whether one of several conditions is false of all rows by its form. -/
def Sql.Condition.anyNever : List Sql.Condition → Bool
  | [] => false
  | c :: rest => c.isNever || anyNever rest
termination_by structural cs => cs

end

mutual

/-- **The columns of a condition** that are looked up. A column that is or is not among no values
does not matter, nor does a conjunction that is false by its form. -/
def Sql.Condition.columns : Sql.Condition → List String
  | .compare column _ _ => [column]
  | .among column _ placeholders => if placeholders.isEmpty then [] else [column]
  | .single inner => inner.columns
  | .joined connector first second more =>
      if Sql.Condition.isNever (.joined connector first second more) then []
      else first.columns ++ second.columns ++ columnsEach more
termination_by structural c => c

/-- The columns of several conditions. -/
def Sql.Condition.columnsEach : List Sql.Condition → List String
  | [] => []
  | c :: rest => c.columns ++ columnsEach rest
termination_by structural cs => cs

end

namespace Store

/-! ### Looking names up -/

/-- Refuses the first name of a clause that stands for nothing. The clause begins after some leading
tokens. -/
def checkClause (sql : String) (lead : List Token) (known : String → Bool) (names : List String) :
    Except EngineFault Unit :=
  match names.find? fun n => !known n with
  | some n => .error (.located (.noSuchColumn n) sql (Sql.offsetAfter lead (.word n) sql))
  | none => .ok ()

/-- Refuses a condition with a name that stands for nothing. -/
def checkCondition (sql : String) (known : String → Bool) (condition : Option Sql.Condition) :
    Except EngineFault Unit :=
  checkClause sql [.word "WHERE"] known ((condition.map Sql.Condition.columns).getD [])

/-- Refuses the names that the engine keeps for itself. -/
def checkFree (name : String) : Except EngineFault Unit :=
  if sameName (String.ofList (name.toList.take 7)) "sqlite_" then .error (.reservedName name) else .ok ()

/-- Refuses a column of a name that was there before, and a primary key after another one; says
whether there was a primary key. -/
def checkColumns (table : String) (seen : List String) (keyed : Bool) :
    List ColumnDefinition → Except EngineFault Bool
  | [] => .ok keyed
  | c :: rest =>
      let count := c.constraints.count .primaryKey
      if seen.any (sameName c.name) then .error (.repeatedColumn c.name)
      else if 1 < count + keyed.toNat then .error (.repeatedKey table)
      else checkColumns table (c.name :: seen) (keyed || 0 < count) rest

/-- **Refuses a definition of a table** that makes no sense by itself. -/
def checkDefinition (sql : String) (d : TableDefinition) : Except EngineFault Unit := do
  let keyed ← checkColumns d.name [] false d.columns
  let known := fun n => d.columns.any fun c => sameName c.name n
  if d.primaryKey.isEmpty then pure ()
  else if keyed then .error (.repeatedKey d.name)
  else checkClause sql (keywords ["PRIMARY", "KEY"] ++ [.opening]) known d.primaryKey
  match d.foreignKeys.find? fun k => !known k.column with
  | some k => .error (.noReference k.column)
  | none => .ok ()

/-- **Looks up the names of a command.** -/
def check (s : Store) (sql : String) : Sql.Command → Except EngineFault Unit
  | .createTable d => do
      checkFree d.name
      if (s.table? d.name).isSome then .ok ()
      else if s.hasIndex d.name then .error (.takenByIndex d.name)
      else checkDefinition sql d
  | .createIndex table index =>
      match s.table? table with
      | none => .error (.noSuchTable ("main." ++ table))
      | some t => do
          checkFree index.name
          if (s.table? index.name).isSome then .error (.takenByTable index.name)
          else if s.hasIndex index.name then .ok ()
          else checkClause sql [.opening] t.hasColumn index.columns
  | .insert table columns _ => do
      let t ← s.table table
      match columns.find? fun n => !t.knows n with
      | some n => .error (.noColumnNamed table n)
      | none => .ok ()
  | .insertDefaults table => do
      let _ ← s.table table
      .ok ()
  | .update table assignments condition => do
      let t ← s.table table
      match (assignments.map Prod.fst).find? fun n => !t.knows n with
      | some n => .error (.noSuchColumn n)
      | none => checkCondition sql t.knows condition
  | .delete table condition => do
      let t ← s.table table
      checkCondition sql t.knows condition
  | .select q => do
      let t ← s.table q.table
      checkClause sql [.word "SELECT"] t.knows q.projection.names
      checkCondition sql t.knows q.condition
      checkClause sql (keywords ["ORDER", "BY"]) t.knows (q.orderBy.map OrderTerm.column)
  | .begin => .ok ()
  | .commit => .ok ()
  | .rollback => .ok ()

end Store

end ScopedSql
