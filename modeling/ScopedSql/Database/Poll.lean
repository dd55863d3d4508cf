import ScopedSql.Database.Basic

/-!
# One step of a task

`Database.poll?` lets one task take one step. It gives nothing when the task waits or is over. Each
step is short: between any two of them other tasks and clients may step in, and no step does more
than one engine call.
-/

namespace ScopedSql

namespace Database

/-! ### Entering the work -/

/-- Runs a transaction statement that is prepared. -/
def runTransaction (db : Database) (t : TaskId) (verb : TransactionVerb) : Database × List Event :=
  db.call t (.prepared .run verb.sql NameMap.empty) .transacted

/-- **A task comes to the transaction statements**: it uses them if they are prepared, prepares them
if no one does, and else waits in the queue. -/
def enterTransaction (db : Database) (t : TaskId) (verb : TransactionVerb) : Database × List Event :=
  if db.transaction.prepared then db.runTransaction t verb
  else if db.transaction.holder.isNone then
    ({ db with transaction := { db.transaction with holder := some t } }.setStage t
      (.preparing verb TransactionVerb.all), [])
  else
    ({ db with transaction := { db.transaction with queue := db.transaction.queue ++ [t] } }.setStage t
      (.queued verb), [])

/-- **A task is let in** by its scope and does its work. -/
def enter (db : Database) (t : TaskId) (work : Work) (s : ScopeId) : Database × List Event :=
  match work with
  | .arrive => db.complete t (.ok .done)
  | .announce => db.complete t (.ok (.scope s))
  | .query verb sql bindings counting => db.call t (.direct verb sql bindings) (.answer verb counting)
  | .prepare sql => db.call t (.prepare sql) (.handle sql)
  | .transact verb => db.enterTransaction t verb

/-- **A task comes to a scope**: an ended scope lets no one in. -/
def approach (db : Database) (t : TaskId) (work : Work) (s : ScopeId) : Database × List Event :=
  if db.scheduler.isEnded s then
    let (db, events) := db.complete t (.error (.scopeEnded s.number))
    (db, .approached t s :: events)
  else (db.setStage t (.awaitingStart work s), [.approached t s])

/-! ### The first step -/

/-- A gated task starts to wait for the initializers that there are now. -/
def startGate (db : Database) (t : TaskId) (goal : Option (Work × Option ScopeId)) :
    Database × List Event :=
  (db.setStage t (.initializing goal 0 db.initializers.length), [.gated t db.initializers.length])

/-- A task begins to close the scheduler. -/
def startClose (db : Database) (t : TaskId) : Database × List Event :=
  let (scheduler, outstanding, events) := db.scheduler.beginClose
  ({ db with scheduler }.setStage t (.draining outstanding), events.map .scope)

/-- The notice of a database that closes while scopes are pending. -/
def closingNotice (db : Database) : List Event :=
  if 0 < db.scheduler.pendingCount then [.noticed (.closingEarly db.scheduler.pendingCount)] else []

/-- **The first step of an operation.** A request that cannot be planned ends here. -/
def launch (db : Database) (t : TaskId) : Operation → Database × List Event
  | .waitStarted s => db.approach t .arrive s
  | .waitEnded s => (db.setStage t (.awaitingEnd s), [])
  | .waitScopeStart s => db.approach t .announce (s.getD db.scheduler.community)
  | .closeScheduler => db.startClose t
  | .close =>
      let (db', events) := db.startClose t
      (db', db.closingNotice ++ events)
  | .ready => db.startGate t none
  | .query verb sql bindings s => db.startGate t (some (.query verb sql bindings false, s))
  | .prepare sql s => db.startGate t (some (.prepare sql, s))
  | .execute verb sql bindings => db.call t (.prepared verb sql bindings) (.answer verb false)
  | .transact verb s => db.startGate t (some (.transact verb, s))
  | .request table request =>
      match request.plan table with
      | .error e => db.complete t (.error e)
      | .ok plan => db.startGate t (some
          (.query plan.verb plan.statement.text plan.statement.bindings plan.counting, plan.target))

/-! ### Later steps -/

/-- All initializers have succeeded: the task is ready, or comes to its scope. A task without a
scope of its own takes the community scope that is current now. -/
def pass (db : Database) (t : TaskId) : Option (Work × Option ScopeId) → Database × List Event
  | none => db.complete t (.ok .done)
  | some (work, s) => db.approach t work (s.getD db.scheduler.community)

/-- **Waiting for one initializer.** Whoever waits drives it on; its failure ends the task. -/
def awaitInitializer? (db : Database) (t : TaskId) (goal : Option (Work × Option ScopeId))
    (next limit : Nat) (i : Initializer) : Option (Database × List Event) :=
  match i.phase with
  | .idle => some (db.setPhase next .running, [.began next])
  | .running =>
      if db.isOpen i.hold then some (db.setPhase next .finished, [.initialized next]) else none
  | .finished =>
      match i.result with
      | .ok () => some (db.setStage t (.initializing goal (next + 1) limit), [])
      | .error e => some (db.complete t (.error (.initialization e.message)))

/-- Hands the preparation of the transaction statements to the next task that waits. -/
def handOver (db : Database) : Database :=
  { db with transaction :=
      { db.transaction with holder := db.transaction.queue.head?, queue := db.transaction.queue.tail } }

/-- **All transaction statements are prepared**, for good. -/
def settleTransaction (db : Database) : Database :=
  { db with transaction := { prepared := true, holder := none, queue := [] } }

/-- **A reply comes in.** -/
def receive (db : Database) (t : TaskId) (result : Except Fault Response) :
    Purpose → Database × List Event
  | .answer verb counting => db.complete t (result.bind (Plan.read verb counting))
  | .handle sql => db.complete t (result.map fun _ => .statement sql)
  | .transacted => db.complete t (result.map fun _ => .done)
  | .part verb rest =>
      match result with
      | .error e => db.handOver.complete t (.error e)
      | .ok _ => (db.setStage t (.preparing verb rest), [])

/-- **One step of a task** in its stage, if it can take one. -/
def pollStage? (db : Database) (t : TaskId) (x : Task) : Option (Database × List Event) :=
  match x.stage with
  | .fresh => some (db.launch t x.operation)
  | .initializing goal next limit =>
      if limit ≤ next then some (db.pass t goal)
      else
        match db.initializers[next]? with
        | none => some (db.pass t goal)
        | some i => db.awaitInitializer? t goal next limit i
  | .awaitingStart work s => if db.scheduler.isStarted s then some (db.enter t work s) else none
  | .awaitingEnd s => if db.scheduler.allOver [s] then some (db.complete t (.ok .done)) else none
  | .draining scopes =>
      if db.scheduler.allOver scopes then
        some ({ db with scheduler := db.scheduler.endClose }.complete t (.ok .done))
      else none
  | .queued verb =>
      if db.transaction.prepared then some (db.runTransaction t verb)
      else if db.transaction.holder = some t then
        some (db.setStage t (.preparing verb TransactionVerb.all), [])
      else none
  | .preparing verb [] => some (db.settleTransaction.runTransaction t verb)
  | .preparing verb (next :: rest) => some (db.call t (.prepare next.sql) (.part verb rest))
  | .replying reply purpose =>
      if db.isOpen reply.hold then some (db.receive t reply.result purpose) else none
  | .finished _ => none

/-- **One step of a task**, if there is such a task and it can take one. -/
def poll? (db : Database) (t : TaskId) : Option (Database × List Event) :=
  (db.tasks[t]?).bind (db.pollStage? t)

end Database

end ScopedSql
