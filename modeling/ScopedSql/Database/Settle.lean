import ScopedSql.Database.Run

/-!
# Settling

`Database.settle` lets tasks run until none can go on. Tasks that wait for a scope go first, in the
order in which their scopes were started; all others take turns by number. Which order is chosen
is visible only in who prepares the transaction statements.

The number of steps is bounded by the budget of the database: what every task still has on its way.
-/

namespace ScopedSql

/-- The most steps that a task can take from a stage on, once it has been launched. -/
def Stage.budget (initializers : Nat) : Stage → Nat
  | .fresh => 13 + initializers
  | .initializing _ next limit => 11 + (limit - next)
  | .awaitingStart _ _ => 10
  | .awaitingEnd _ => 1
  | .draining _ => 1
  | .queued _ => 9
  | .preparing _ rest => 2 * rest.length + 2
  | .replying _ (.part _ rest) => 2 * rest.length + 3
  | .replying _ _ => 1
  | .finished _ => 0

/-- The most steps that an initializer can still take. -/
def InitializerPhase.budget : InitializerPhase → Nat
  | .idle => 2
  | .running => 1
  | .finished => 0

namespace Database

/-- **The budget**: the most steps that all tasks together can take without a client. -/
def budget (db : Database) : Nat :=
  total (fun t => t.stage.budget db.initializers.length) db.tasks +
    total (fun i => i.phase.budget) db.initializers

/-- The tasks that wait for a scope to start. -/
def waitingFor (db : Database) (s : ScopeId) : List TaskId :=
  db.tasks.zipIdx.filterMap fun (x, t) =>
    match x.stage with
    | .awaitingStart _ s' => if s' = s then some t else none
    | _ => none

/-- The tasks that events let go on, in the order of the events. -/
def released? (db : Database) (events : List Event) : List TaskId :=
  events.flatMap fun e =>
    match e with
    | .scope (.started s) => db.waitingFor s
    | _ => []

/-- The first task of a list that can take a step, and the step. -/
def firstStep? (db : Database) (tasks : List TaskId) : Option (Database × List Event) :=
  tasks.findSome? db.poll?

/-- Lets tasks run, those in `first` before the others, for at most so many steps. -/
def settleWithin : Nat → Database → List TaskId → Database × List Event
  | 0, db, _ => (db, [])
  | steps + 1, db, first =>
      match db.firstStep? (first ++ List.range db.tasks.length) with
      | none => (db, [])
      | some (db, events) =>
          let after := settleWithin steps db (first ++ db.released? events)
          (after.1, events ++ after.2)

/-- **Lets tasks run until none can go on**, after the events that set them free. -/
def settle (db : Database) (events : List Event) : Database × List Event :=
  settleWithin db.budget db (db.released? events)

end Database

end ScopedSql
