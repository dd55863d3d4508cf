import ScopedSql.Database.Settle
import ScopedSql.Predicate.Shorthand

/-!
# Sessions

A session plays a script against a database in virtual time. After each step all tasks run until
none can go on, and what can be seen from outside is written down: the result of the step, the state
of the chain, and what has changed since the observation before.

The session holds on to the scopes that it has got and to the tables that it has opened. A scope
that no one holds any more is let go of. Scopes are held by the session, by tables, by operations
under way, by the hooks that are about them, and by the chain as long as someone has the database.
-/

namespace ScopedSql

/-- **One step of a script.** -/
inductive Step where
  /-- Creates a scope outside the chain, with the interval of the session unless one is given. -/
  | create (kind : ScopeKind) (interval : Option Nat)
  /-- Starts a scope. -/
  | start (scope : ScopeId)
  /-- Ends a scope. -/
  | finish (scope : ScopeId)
  /-- Looks at a scope. -/
  | inspect (scope : ScopeId)
  /-- Forgets a scope. -/
  | forget (scope : ScopeId)
  /-- Requests a user scope. -/
  | newScope
  /-- Drops the database with its tables. -/
  | dropDatabase
  /-- Opens a table. -/
  | openTable (name : String) (defaults : SelectOptions)
  /-- Registers an initializer. -/
  | addInitializer (hold : Option String) (result : Except Fault Unit)
  /-- Releases a hold. -/
  | release (hold : String)
  /-- Lets time pass. -/
  | advance (ms : Nat)
  /-- Issues an operation. -/
  | issue (operation : Operation) (replies : List Reply)
  /-- Runs the statement that a task has prepared. -/
  | execute (statement : TaskId) (verb : Verb) (bindings : Bindings) (replies : List Reply)
  /-- Sends a request, whose filter has to be read first, to a table. -/
  | request (table : Nat) (request : Reading Request) (replies : List Reply)

/-- **The result of a step.** -/
inductive StepResult where
  /-- Nothing. -/
  | nothing
  /-- A new scope. -/
  | scope (s : ScopeId)
  /-- A look at a scope. -/
  | view (s : ScopeId) (kind : ScopeKind) (state : ScopeState)
  /-- An open table. -/
  | table (index : Nat) (name : String)
  /-- A new initializer. -/
  | initializer (n : Nat)
  /-- A new task. -/
  | task (t : TaskId)
  /-- A fault. -/
  | fault (e : Fault)

/-- **What is seen of the chain.** -/
structure ChainView where
  /-- The current community scope. -/
  current : ScopeId
  /-- The number of pending scopes. -/
  pending : Nat
  /-- Whether it is closed. -/
  closed : Bool
  deriving DecidableEq

/-- **What is seen after a step.** -/
structure Observation where
  /-- The result of the step. -/
  result : StepResult
  /-- The chain, while the database is there. -/
  chain : Option ChainView
  /-- The scopes whose state has changed, with their state. -/
  changed : List (ScopeId × ScopeState)
  /-- The initializers that ended. -/
  initialized : List Nat
  /-- The engine calls, by task. -/
  calls : List (TaskId × Call)
  /-- The tasks that ended. -/
  completed : List (TaskId × Except Fault Outcome)
  /-- The notices. -/
  notices : List Notice

/-- **A session.** -/
structure Session where
  /-- The database. -/
  db : Database
  /-- Whether the database was not dropped. -/
  live : Bool
  /-- The open tables. -/
  tables : List Table
  /-- The scopes at hand. -/
  known : List ScopeId
  /-- The states in which scopes were seen, the last ones first. -/
  seen : List (ScopeId × ScopeState)

/-- The display form of a scope. -/
def ScopeId.display (s : ScopeId) (kind : ScopeKind) (state : ScopeState) : String :=
  "Scope \x7b id: " ++ toString s.number ++ ", kind: " ++ kind.display ++ ", state: "
    ++ state.display ++ " \x7d"

namespace Session

/-! ### Observing -/

/-- The notice of an event, if it gives one. -/
def noticeOf? (db : Database) : Event → Option Notice
  | .noticed n => some n
  | .scope (.refused s) => some (.startedTwice s)
  | .scope (.rang s _ seconds) =>
      (db.scheduler.scope? s).map fun x => .stillOpen s x.kind seconds
  | _ => none

/-- What notices are sorted by: the scope and the seconds, each if the notice has it. -/
def noticeKey : Notice → Nat × Nat
  | .stillOpen s _ seconds => (s.number, seconds + 1)
  | .startedTwice s => (s.number, 0)
  | _ => (0, 0)

/-- The order of keys. -/
def keyLe (a b : Nat × Nat) : Bool :=
  decide (a.1 < b.1) || (decide (a.1 = b.1) && decide (a.2 ≤ b.2))

/-- The state of a scope at hand. -/
def stateOf (db : Database) (s : ScopeId) : ScopeState :=
  ((db.scheduler.scope? s).map Scope.state).getD .pending

/-- Takes a scope into one's hands, unless it is there. Scopes at hand are in order of creation. -/
def know (known : List ScopeId) (s : ScopeId) : List ScopeId :=
  if known.contains s then known else (known ++ [s]).mergeSort fun a b => decide (a.index ≤ b.index)

/-- The scopes at hand whose state is not the one in which they were seen last, with their state. A
scope that was forgotten in between counts as seen. -/
def changes (x : Session) (known : List ScopeId) : List (ScopeId × ScopeState) :=
  (known.map fun s => (s, stateOf x.db s)).filter fun (s, now) => x.seen.lookup s != some now

/-- The view of the chain, while the database is there. -/
def chainView (x : Session) : Option ChainView :=
  if x.live then
    some ⟨x.db.scheduler.community, x.db.scheduler.pendingCount, x.db.scheduler.closed⟩
  else none

/-- **Writes down what is seen** after events, and remembers it. -/
def observe (x : Session) (result : StepResult) (notices : List Notice) (events : List Event) :
    Session × Observation :=
  let known := if x.live then know x.known x.db.scheduler.community else x.known
  let changed := x.changes known
  let observation : Observation :=
    { result
      chain := x.chainView
      changed
      initialized := (events.filterMap fun e => match e with
        | .initialized i => some i
        | _ => none).mergeSort
      calls := (events.filterMap fun e => match e with
        | .called t c => some (t, c)
        | _ => none).mergeSort fun a b => decide (a.1 ≤ b.1)
      completed := (events.filterMap fun e => match e with
        | .completed t r => some (t, r)
        | _ => none).mergeSort fun a b => decide (a.1 ≤ b.1)
      notices := (notices ++ events.filterMap (noticeOf? x.db)).mergeSort fun a b =>
        keyLe (noticeKey a) (noticeKey b) }
  ({ x with known, seen := changed ++ x.seen }, observation)

/-! ### Holding on to scopes -/

/-- The operations under way. -/
def underWay (x : Session) : List Operation :=
  (x.db.tasks.filter fun t => t.result?.isNone).map Task.operation

/-- Whether anyone has the database: the session or an operation under way. -/
def hasDatabase (x : Session) : Bool :=
  x.live || x.underWay.any Operation.holdsDatabase

/-- **Whether anyone holds a scope**: the session, a table, an operation under way, a hook, or the
chain. -/
def holds (x : Session) (s : ScopeId) : Bool :=
  x.known.contains s ||
    (x.tables.any fun t => t.defaults.scope = some s) ||
    (x.underWay.any fun o => o.scopes.contains s) ||
    (x.db.scheduler.scopes.any fun y => y.hooks.any fun h => h.scopes.contains s) ||
    (x.hasDatabase && (x.db.scheduler.community = s || x.db.scheduler.pending.contains s))

/-- Lets go of all scopes that no one holds. -/
def letGo (x : Session) : Session :=
  let loose := (List.range x.db.scheduler.scopes.length).filter fun i => !x.holds ⟨i⟩
  { x with db := loose.foldl (fun db i => (db.act (.abandon ⟨i⟩)).1) x.db }

/-! ### Steps -/

/-- Takes an action, lets tasks run, and writes down what is seen. -/
def act (x : Session) (notices : List Notice) (action : Action) : Session × Observation :=
  let (db, result, first) := x.db.act action
  let (db, later) := db.settle first
  let known := match result with
    | .scope s => know x.known s
    | _ => x.known
  let result := match result with
    | .nothing => .nothing
    | .task t => .task t
    | .scope s => .scope s
    | .initializer n => .initializer n
    | .fault e => .fault e
  ({ x with db, known }.letGo).observe result notices (first ++ later)

/-- The statement that a task has prepared. -/
def statementOf? (x : Session) (t : TaskId) : Option String :=
  match (x.db.tasks[t]?).bind Task.result? with
  | some (.ok (.statement sql)) => some sql
  | _ => none

/-- **One step of a script.** Statements and tables that are not there come to nothing. -/
def step (x : Session) : Step → Session × Observation
  | .create kind interval => x.act [] (.create kind (interval.getD x.db.scheduler.interval))
  | .start s => x.act [] (.start s)
  | .finish s => x.act [] (.finish s)
  | .inspect s =>
      match x.db.scheduler.scope? s with
      | none => x.observe .nothing [] []
      | some scope => x.observe (.view s scope.kind scope.state) [] []
  | .forget s => ({ x with known := x.known.filter (· ≠ s) }.letGo).observe .nothing [] []
  | .newScope => x.act [] .newScope
  | .dropDatabase => { x with live := false, tables := [] }.act [] .disown
  | .openTable name defaults =>
      match Table.open? name defaults with
      | .error e => x.observe (.fault e) [] []
      | .ok t => { x with tables := x.tables ++ [t] }.observe (.table x.tables.length t.name) [] []
  | .addInitializer hold result => x.act [] (.addInitializer hold result)
  | .release hold => x.act [] (.release hold)
  | .advance ms => x.act [] (.advance ms)
  | .issue operation replies => x.act [] (.issue operation replies)
  | .execute statement verb bindings replies =>
      match x.statementOf? statement with
      | none => x.observe .nothing [] []
      | some sql => x.act [] (.issue (.execute verb sql bindings) replies)
  | .request table request replies =>
      match x.tables[table]?, request.outcome with
      | none, _ => x.observe .nothing request.notices []
      | some _, .error e => x.observe (.fault e) request.notices []
      | some t, .ok r => x.act request.notices (.issue (.request t r) replies)

/-- **A new session** and what is seen before any step. -/
def new (interval : Nat) (timed : Bool) : Session × Observation :=
  let (db, events) := Database.new interval timed
  let x : Session := { db, live := true, tables := [], known := [], seen := [] }
  x.observe .nothing [] events

/-- The observations of a list of steps. -/
def playFrom (x : Session) : List Step → List Observation
  | [] => []
  | s :: rest =>
      let (x, seen) := x.step s
      seen :: playFrom x rest

/-- **Plays a script**: what is seen before it and after each of its steps. -/
def play (interval : Nat) (timed : Bool) (script : List Step) : List Observation :=
  let (x, seen) := new interval timed
  seen :: x.playFrom script

end Session

end ScopedSql
