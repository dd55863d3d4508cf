import ScopedSql.Database.Task
import ScopedSql.Notice
import ScopedSql.Scope.Clock

/-!
# Databases

A database shares one engine among many tasks. It has a scheduler of scopes, a list of
initializers that everything waits for, and the transaction statements, which are prepared once by
the first task that needs them.

Everything that happens is an event; the calls of the engine are among them.
-/

namespace ScopedSql

/-- **How far an initializer is.** -/
inductive InitializerPhase where
  /-- No one has waited for it yet. -/
  | idle
  /-- It is under way. -/
  | running
  /-- It is over. -/
  | finished
  deriving DecidableEq, Repr

/-- **An initializer**: work that every later operation waits for. It begins when someone first waits
for it, waits for its hold if it has one, and then ends with its result. -/
structure Initializer where
  /-- The hold. -/
  hold : Option String
  /-- How it ends. -/
  result : Except Fault Unit
  /-- How far it is. -/
  phase : InitializerPhase

/-- **The transaction statements**: prepared once, by one task at a time. -/
structure TransactionCell where
  /-- Whether all are prepared. -/
  prepared : Bool
  /-- The task that prepares them now. -/
  holder : Option TaskId
  /-- The tasks that wait for their turn, in order of arrival. -/
  queue : List TaskId
  deriving DecidableEq

/-- **A database** with its tasks. -/
structure Database where
  /-- The scopes. -/
  scheduler : Scheduler
  /-- The initializers in order of registration. -/
  initializers : List Initializer
  /-- The transaction statements. -/
  transaction : TransactionCell
  /-- All tasks, by number. -/
  tasks : List Task
  /-- The holds that were released. -/
  released : List String

/-- **What happens in a database.** -/
inductive Event where
  /-- Something happened to a scope. -/
  | scope (event : ScopeEvent)
  /-- A task began to wait for so many initializers. -/
  | gated (task : TaskId) (initializers : Nat)
  /-- A task came to a scope, which it is to wait for. -/
  | approached (task : TaskId) (scope : ScopeId)
  /-- An initializer began. -/
  | began (initializer : Nat)
  /-- An initializer ended. -/
  | initialized (initializer : Nat)
  /-- A task called the engine. -/
  | called (task : TaskId) (call : Call)
  /-- A task ended. -/
  | completed (task : TaskId) (result : Except Fault Outcome)
  /-- A notice was given. -/
  | noticed (notice : Notice)

namespace Database

/-- **A new database**, with the events of its first scope. -/
def new (interval : Nat) (timed : Bool) : Database × List Event :=
  let (scheduler, events) := Scheduler.new interval timed
  ({ scheduler, initializers := [], transaction := ⟨false, none, []⟩, tasks := [], released := [] },
    events.map .scope)

/-- Whether nothing is held back: there is no hold, or it was released. -/
def isOpen (db : Database) (hold : Option String) : Bool :=
  hold.all fun h => db.released.contains h

/-- Puts a task into a stage. -/
def setStage (db : Database) (t : TaskId) (stage : Stage) : Database :=
  { db with tasks := db.tasks.modify t fun x => { x with stage } }

/-- Changes an initializer's phase. -/
def setPhase (db : Database) (i : Nat) (phase : InitializerPhase) : Database :=
  { db with initializers := db.initializers.modify i fun x => { x with phase } }

/-- Ends a task. -/
def complete (db : Database) (t : TaskId) (result : Except Fault Outcome) :
    Database × List Event :=
  (db.setStage t (.finished result), [.completed t result])

/-- Makes an engine call for a task, which then waits for its next reply. -/
def call (db : Database) (t : TaskId) (c : Call) (purpose : Purpose) : Database × List Event :=
  ({ db with tasks := db.tasks.modify t fun x =>
      { x with replies := x.replies.tail, stage := .replying (x.replies.head?.getD {}) purpose } },
    [.called t c])

end Database

end ScopedSql
