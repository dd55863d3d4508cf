import ScopedSql.Predicate.Shorthand
import ScopedSql.Query.Request
import ScopedSql.Database.Task
import ScopedSql.Schema.Statements
import ScopedSql.Store.Answer

/-!
# A database in memory

A `Connection` opens a schema on an empty store and lets one caller at a time work with it. The
statements of the schema are its only initializer; if they fail, so does every operation. After
closing, no operation is let in.
-/

namespace ScopedSql

/-- **An open database in memory.** -/
structure Connection where
  /-- The store. -/
  store : Store
  /-- How the statements of the schema ended. -/
  setup : Except Fault Unit
  /-- Whether it was closed. -/
  closed : Bool

/-- **What a caller asks** of a connection. -/
inductive ConnectionStep where
  /-- Waits for the schema. -/
  | ready
  /-- Closes the connection. -/
  | close
  /-- Runs a transaction statement. -/
  | transact (verb : TransactionVerb)
  /-- Opens a table. -/
  | openTable (name : String)
  /-- Sends a request, whose filter has to be read first, to a table. -/
  | request (table : String) (request : Reading Request)
  /-- Runs a statement. -/
  | query (verb : Verb) (sql : String) (bindings : Bindings)

namespace Connection

/-- Runs statements one after the other up to the first that fails. -/
def apply (s : Store) : List String → Store × Except Fault Unit
  | [] => (s, .ok ())
  | sql :: rest =>
      match s.answer .run sql NameMap.empty with
      | (s, .error e) => (s, .error e)
      | (s, .ok _) => apply s rest

/-- **Opens a schema.** A schema that cannot be written is refused at once. -/
def open? (schema : Schema) : Except Fault Connection := do
  let texts ← schema.texts
  let (store, setup) := apply Store.empty texts
  .ok { store, setup, closed := false }

/-- Lets an operation in, once the schema is there and unless the connection was closed. -/
def gate (c : Connection) : Except Fault Unit :=
  match c.setup with
  | .error e => .error (.initialization e.message)
  | .ok () => if c.closed then .error (.scopeEnded 1) else .ok ()

/-- Makes one engine call behind the gate. -/
def call (c : Connection) (verb : Verb) (sql : String) (bindings : Bindings)
    (read : Response → Except Fault Outcome) : Connection × Except Fault Outcome :=
  match c.gate with
  | .error e => (c, .error e)
  | .ok () =>
      let (store, response) := c.store.answer verb sql bindings
      ({ c with store }, response.bind read)

/-- Sends a request to a table. -/
def send (c : Connection) (t : Table) (r : Request) : Connection × Except Fault Outcome :=
  match r.plan t with
  | .error e => (c, .error e)
  | .ok plan =>
      c.call plan.verb plan.statement.text plan.statement.bindings (Plan.read plan.verb plan.counting)

/-- **One step**, with its notices and its outcome. The name of a table is checked first, then the
filter is read. -/
def step (c : Connection) : ConnectionStep → Connection × List Notice × Except Fault Outcome
  | .ready =>
      (c, [], match c.setup with
        | .error e => .error (.initialization e.message)
        | .ok () => .ok .done)
  | .close => ({ c with closed := true }, [], .ok .done)
  | .transact verb =>
      let (c, outcome) := c.call .run verb.sql NameMap.empty fun _ => .ok .done
      (c, [], outcome)
  | .openTable name => (c, [], (Table.open? name {}).map fun _ => .done)
  | .request table request =>
      match Table.open? table {} with
      | .error e => (c, [], .error e)
      | .ok t =>
          match request.outcome with
          | .error e => (c, request.notices, .error e)
          | .ok r =>
              let (c, outcome) := c.send t r
              (c, request.notices, outcome)
  | .query verb sql bindings =>
      let (c, outcome) := c.call verb sql bindings fun r => .ok (verb.read r)
      (c, [], outcome)

/-- **All steps** of a list. -/
def steps (c : Connection) : List ConnectionStep → List (List Notice × Except Fault Outcome)
  | [] => []
  | s :: rest =>
      let (c, notices, outcome) := c.step s
      (notices, outcome) :: steps c rest

end Connection

end ScopedSql
