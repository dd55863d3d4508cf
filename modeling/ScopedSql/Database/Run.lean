import ScopedSql.Database.Poll

/-!
# Runs of a database

A run is any sequence of moves: clients act, and tasks take steps, in any order. Nothing is said
about who is next, so what holds after every run holds under every schedule. A state is quiet when
no task can take a step.
-/

namespace ScopedSql

/-- **What a client can do** without waiting. -/
inductive Action where
  /-- Issues an operation, which runs as a new task with these engine replies. -/
  | issue (operation : Operation) (replies : List Reply)
  /-- Requests a user scope. -/
  | newScope
  /-- Creates a scope outside the chain. -/
  | create (kind : ScopeKind) (interval : Nat)
  /-- Starts a scope. -/
  | start (scope : ScopeId)
  /-- Ends a scope. -/
  | finish (scope : ScopeId)
  /-- Lets go of a scope. -/
  | abandon (scope : ScopeId)
  /-- Registers an initializer. -/
  | addInitializer (hold : Option String) (result : Except Fault Unit)
  /-- Releases a hold for good. -/
  | release (hold : String)
  /-- Lets time pass. -/
  | advance (ms : Nat)
  /-- Drops the last handle of the database. -/
  | disown

/-- **What an action returns.** -/
inductive ActionResult where
  /-- Nothing. -/
  | nothing
  /-- The number of the new task. -/
  | task (t : TaskId)
  /-- The new scope. -/
  | scope (s : ScopeId)
  /-- The number of the new initializer. -/
  | initializer (n : Nat)
  /-- A fault. -/
  | fault (e : Fault)

/-- **One move** of a run. -/
inductive Move where
  /-- A client acts. -/
  | act (action : Action)
  /-- A task takes a step, if it can. -/
  | poll (task : TaskId)

namespace Database

/-- Replaces the scheduler after an operation on it. -/
def withScheduler (db : Database) (r : Scheduler × List ScopeEvent) : Database × List Event :=
  ({ db with scheduler := r.1 }, r.2.map .scope)

/-- **A client acts.** -/
def act (db : Database) : Action → Database × ActionResult × List Event
  | .issue operation replies =>
      ({ db with tasks := db.tasks ++ [⟨operation, replies, .fresh⟩] }, .task db.tasks.length, [])
  | .newScope =>
      let (scheduler, result, events) := db.scheduler.newScope
      ({ db with scheduler },
        match result with
        | .ok s => .scope s
        | .error e => .fault e,
        events.map .scope)
  | .create kind interval =>
      let (scheduler, s) := db.scheduler.create kind interval
      ({ db with scheduler }, .scope s, [])
  | .start s =>
      match db.scheduler.start s with
      | .error e => (db, .fault e, [])
      | .ok r =>
          let (db, events) := db.withScheduler r
          (db, .nothing, events)
  | .finish s =>
      let (db, events) := db.withScheduler (db.scheduler.finish s)
      (db, .nothing, events)
  | .abandon s => ({ db with scheduler := db.scheduler.abandon s }, .nothing, [])
  | .addInitializer hold result =>
      ({ db with initializers := db.initializers ++ [⟨hold, result, .idle⟩] },
        .initializer db.initializers.length, [])
  | .release hold => ({ db with released := hold :: db.released }, .nothing, [])
  | .advance ms =>
      let (db, events) := db.withScheduler (db.scheduler.advance ms)
      (db, .nothing, events)
  | .disown => ({ db with scheduler := db.scheduler.disown }, .nothing, [])

/-- **One move.** A task that cannot take a step leaves everything as it is. -/
def move (db : Database) : Move → Database × List Event
  | .act a =>
      let (db, _, events) := db.act a
      (db, events)
  | .poll t => (db.poll? t).getD (db, [])

/-- **A run**: the database after it, and everything that happened. -/
def run (db : Database) : List Move → Database × List Event
  | [] => (db, [])
  | m :: rest =>
      let (db, first) := db.move m
      let (db, later) := run db rest
      (db, first ++ later)

/-- **Quiet**: no task can take a step. -/
def Quiet (db : Database) : Prop :=
  ∀ t, db.poll? t = none

end Database

end ScopedSql
