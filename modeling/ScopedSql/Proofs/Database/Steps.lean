import ScopedSql.Database.Run
import ScopedSql.Proofs.Scope.Calls

/-!
# What one step can do

A step of a task goes through many functions, but there are few things that it can come to. `Stride`
lists them: what the task must look like for the step, what it looks like after it, which call to the
scheduler was made and what happened. `exists_stride` finds every step that a task takes in the list;
what is proved of steps rests on the list and never looks into a step again.
-/

namespace ScopedSql

/-- **What a gated operation is after**: its work, and the scope that it was given. A request that
cannot be planned is after nothing. -/
def Operation.goal? : Operation → Option (Work × Option ScopeId)
  | .query verb sql bindings s => some (.query verb sql bindings false, s)
  | .prepare sql s => some (.prepare sql, s)
  | .transact verb s => some (.transact verb, s)
  | .request table r =>
      match r.plan table with
      | .error _ => none
      | .ok plan => some
          (.query plan.verb plan.statement.text plan.statement.bindings plan.counting, plan.target)
  | _ => none

/-- What an operation that waits for a start is after, be it gated or not. -/
def Operation.errand? : Operation → Option (Work × Option ScopeId)
  | .waitStarted s => some (.arrive, some s)
  | .waitScopeStart s => some (.announce, s)
  | o => o.goal?

/-- Whether an operation closes the scheduler. -/
def Operation.closes : Operation → Bool
  | .closeScheduler => true
  | .close => true
  | _ => false

/-- The one call of a work, and what its reply is for. -/
def Work.call? : Work → Option (Call × Purpose)
  | .query verb sql bindings counting => some (.direct verb sql bindings, .answer verb counting)
  | .prepare sql => some (.prepare sql, .handle sql)
  | _ => none

/-- What a task ends with when a reply comes in that is not for the transaction statements. -/
def Purpose.outcome? (result : Except Fault Response) : Purpose → Option (Except Fault Outcome)
  | .answer verb counting => some (result.bind (Plan.read verb counting))
  | .handle sql => some (result.map fun _ => .statement sql)
  | _ => none

/-- Whether a task is at work on a transaction statement. -/
def Stage.transacting : Stage → Bool
  | .queued _ => true
  | .preparing _ _ => true
  | .replying _ (.part _ _) => true
  | .replying _ .transacted => true
  | _ => false

/-- Whether a task was let in and is not over. -/
def Stage.inside : Stage → Bool
  | .queued _ => true
  | .preparing _ _ => true
  | .replying _ _ => true
  | _ => false

/-- Whether a task was not let in yet. -/
def Stage.outside : Stage → Bool
  | .fresh => true
  | .initializing _ _ _ => true
  | .awaitingStart _ _ => true
  | .awaitingEnd _ => true
  | .draining _ => true
  | _ => false

/-- The engine call that a task makes in an event. -/
def Event.callOf? (t : TaskId) : Event → Option Call
  | .called t' call => if t' = t then some call else none
  | _ => none

/-- **The engine calls of a task** among some events, in order. -/
def callsOf (t : TaskId) (es : List Event) : List Call := es.filterMap (Event.callOf? t)

/-- The calls of a task in two lots of events, one after the other. -/
theorem callsOf_append (t : TaskId) (es es' : List Event) :
    callsOf t (es ++ es') = callsOf t es ++ callsOf t es' :=
  List.filterMap_append

/-- What happens to scopes is no call to the engine. -/
theorem callsOf_scopes (t : TaskId) (events : List ScopeEvent) :
    callsOf t (events.map .scope) = [] := by
  simp [callsOf, List.filterMap_map, Function.comp_def, Event.callOf?]

namespace Database

variable {db u : Database} {t : TaskId} {x x' : Task} {o : Operation} {replies : List Reply}
  {stage stage' : Stage} {c : Scheduler.Call} {es : List Event}

/-! ### The steps of a task -/

/-- **A task comes to a scope**, past its initializers or without waiting for any. -/
inductive Seeks (db : Database) (o : Operation) : Stage → Work → ScopeId → Prop
  | gated {work : Work} {target : Option ScopeId} {next limit : Nat} :
      Seeks db o (.initializing (some (work, target)) next limit) work
        (target.getD db.scheduler.community)
  | plain {work : Work} {target : Option ScopeId} :
      o.goal? = none → o.errand? = some (work, target) →
        Seeks db o .fresh work (target.getD db.scheduler.community)

/-- **A task is at work on a transaction statement**, or is let in to it. -/
inductive Transacts (db : Database) : Stage → Prop
  | begun {stage : Stage} : stage.transacting → Transacts db stage
  | enters {verb : TransactionVerb} {s : ScopeId} :
      db.scheduler.isStarted s → Transacts db (.awaitingStart (.transact verb) s)

/-- **A task calls the engine**: for a prepared statement, for the work that its scope lets it in to,
or for a transaction statement. -/
inductive Asks (db : Database) (o : Operation) : Stage → Call → Purpose → Prop
  | executes {verb : Verb} {sql : String} {bindings : Bindings} :
      o = .execute verb sql bindings →
        Asks db o .fresh (.prepared verb sql bindings) (.answer verb false)
  | enters {work : Work} {s : ScopeId} {call : Call} {purpose : Purpose} :
      db.scheduler.isStarted s → work.call? = some (call, purpose) →
        Asks db o (.awaitingStart work s) call purpose
  | transacts {stage : Stage} {call : Call} {purpose : Purpose} :
      db.Transacts stage → (∀ reply, (Stage.replying reply purpose).transacting) →
        Asks db o stage call purpose

/-- **A task ends** without an answer: with its waiting, or with a failure on the way. -/
inductive Ends (o : Operation) : Stage → Prop
  | unplanned : o.errand? = none → ¬ o.closes → Ends o .fresh
  | gated {goal : Option (Work × Option ScopeId)} {next limit : Nat} :
      Ends o (.initializing goal next limit)
  | arrived {work : Work} {s : ScopeId} :
      work = .arrive ∨ work = .announce → Ends o (.awaitingStart work s)
  | ended {s : ScopeId} : Ends o (.awaitingEnd s)
  | transacting {stage : Stage} : stage.transacting → Ends o stage

/-- **One step of a task**: the task before it, the call to the scheduler, the task after it, and
what happened. -/
inductive Stride (db : Database) (t : TaskId) :
    Task → Scheduler.Call → Task → List Event → Prop
  /-- It begins to wait for the initializers that there are. -/
  | gates {o : Operation} {replies : List Reply} {goal : Option (Work × Option ScopeId)} :
      ¬ o.closes → o.goal? = goal →
        Stride db t ⟨o, replies, .fresh⟩ .nothing
          ⟨o, replies, .initializing goal 0 db.initializers.length⟩
          [.gated t db.initializers.length]
  /-- It begins to wait for an end. -/
  | watches {o : Operation} {replies : List Reply} {s : ScopeId} :
      o.errand? = none → ¬ o.closes →
        Stride db t ⟨o, replies, .fresh⟩ .nothing ⟨o, replies, .awaitingEnd s⟩ []
  /-- It begins to close the scheduler. -/
  | closes {o : Operation} {replies : List Reply} {counts : List Nat} :
      o.closes →
        Stride db t ⟨o, replies, .fresh⟩ .beginClose
          ⟨o, replies, .draining db.scheduler.beginClose.2.1⟩
          (counts.map (fun n => .noticed (.closingEarly n)) ++
            (db.scheduler.serve .beginClose).2.map .scope)
  /-- The scope that it comes to was ended. -/
  | rejected {o : Operation} {replies : List Reply} {stage : Stage} {work : Work} {s : ScopeId} :
      db.Seeks o stage work s → db.scheduler.isEnded s →
        Stride db t ⟨o, replies, stage⟩ .nothing
          ⟨o, replies, .finished (.error (.scopeEnded s.number))⟩
          [.approached t s, .completed t (.error (.scopeEnded s.number))]
  /-- It begins to wait for the start of the scope that it comes to. -/
  | joins {o : Operation} {replies : List Reply} {stage : Stage} {work : Work} {s : ScopeId} :
      db.Seeks o stage work s → ¬ db.scheduler.isEnded s →
        Stride db t ⟨o, replies, stage⟩ .nothing ⟨o, replies, .awaitingStart work s⟩
          [.approached t s]
  /-- It drives on an initializer. -/
  | drives {o : Operation} {replies : List Reply} {goal : Option (Work × Option ScopeId)}
      {next limit : Nat} {e : Event} :
      e = .began next ∨ e = .initialized next →
        Stride db t ⟨o, replies, .initializing goal next limit⟩ .nothing
          ⟨o, replies, .initializing goal next limit⟩ [e]
  /-- It turns to the next initializer. -/
  | proceeds {o : Operation} {replies : List Reply} {goal : Option (Work × Option ScopeId)}
      {next limit : Nat} :
      Stride db t ⟨o, replies, .initializing goal next limit⟩ .nothing
        ⟨o, replies, .initializing goal (next + 1) limit⟩ []
  /-- It calls the engine. -/
  | asks {o : Operation} {replies : List Reply} {stage : Stage} {call : Call} {purpose : Purpose} :
      db.Asks o stage call purpose →
        Stride db t ⟨o, replies, stage⟩ .nothing
          ⟨o, replies.tail, .replying (replies.head?.getD {}) purpose⟩ [.called t call]
  /-- It works at a transaction statement. -/
  | works {o : Operation} {replies : List Reply} {stage stage' : Stage} :
      db.Transacts stage → stage'.transacting →
        Stride db t ⟨o, replies, stage⟩ .nothing ⟨o, replies, stage'⟩ []
  /-- It ends with the answer to its call. -/
  | answers {o : Operation} {replies : List Reply} {reply : Reply} {purpose : Purpose}
      {r : Except Fault Outcome} :
      purpose.outcome? reply.result = some r →
        Stride db t ⟨o, replies, .replying reply purpose⟩ .nothing ⟨o, replies, .finished r⟩
          [.completed t r]
  /-- It ends without an answer. -/
  | ends {o : Operation} {replies : List Reply} {stage : Stage} {r : Except Fault Outcome} :
      Ends o stage →
        Stride db t ⟨o, replies, stage⟩ .nothing ⟨o, replies, .finished r⟩ [.completed t r]
  /-- It has closed the scheduler. -/
  | drains {o : Operation} {replies : List Reply} {scopes : List ScopeId} :
      db.scheduler.allOver scopes →
        Stride db t ⟨o, replies, .draining scopes⟩ .endClose ⟨o, replies, .finished (.ok .done)⟩
          [.completed t (.ok .done)]

/-- A step does not change what the task was issued for. -/
theorem Stride.operation (h : db.Stride t x c x' es) : x'.operation = x.operation := by
  cases h <;> rfl

/-- A task that comes to a scope was not let in before. -/
theorem Seeks.outside {work : Work} {s : ScopeId} (h : db.Seeks o stage work s) :
    stage.outside := by
  cases h <;> rfl

/-- **A task that is not let in** by a step was not let in before and makes no call in it. -/
theorem Stride.outside (h : db.Stride t x c x' es) (ho : x'.stage.outside) :
    x.stage.outside ∧ callsOf t es = [] := by
  cases h with
  | gates => exact ⟨rfl, rfl⟩
  | watches => exact ⟨rfl, rfl⟩
  | @closes _ _ counts =>
      refine ⟨rfl, ?_⟩
      rw [callsOf_append, callsOf_scopes, callsOf]
      simp [List.filterMap_map, Function.comp_def, Event.callOf?]
  | joins hk => exact ⟨hk.outside, rfl⟩
  | drives he => rcases he with rfl | rfl <;> exact ⟨rfl, rfl⟩
  | proceeds => exact ⟨rfl, rfl⟩
  | @works _ _ _ stage _ hs => cases stage <;> simp [Stage.transacting, Stage.outside] at hs ho
  | _ => cases ho

/-- A step makes no calls for other tasks. -/
theorem Stride.callsOf_ne (h : db.Stride t x c x' es) {i : TaskId} (hi : t ≠ i) :
    callsOf i es = [] := by
  cases h with
  | closes =>
      rw [callsOf_append, callsOf_scopes, callsOf]
      simp [List.filterMap_map, Function.comp_def, Event.callOf?]
  | drives he => rcases he with rfl | rfl <;> rfl
  | asks => simp [callsOf, Event.callOf?, hi]
  | _ => rfl

/-- A task that is over takes no step. -/
theorem Stride.unfinished (h : db.Stride t x c x' es) {r : Except Fault Outcome} :
    x.stage ≠ .finished r := by
  intro hs
  obtain ⟨o, replies, stage⟩ := x
  cases hs
  cases h with
  | rejected hk => cases hk
  | joins hk => cases hk
  | asks ha =>
      cases ha with
      | transacts ht => cases ht with | begun hs => cases hs
  | works ht => cases ht with | begun hs => cases hs
  | ends he => cases he with | transacting hs => cases hs

/-! ### Every step is one of these -/

/-- A result comes from one step of a task. -/
def Strides (db : Database) (t : TaskId) (x : Task) (r : Database × List Event) : Prop :=
  ∃ c x', db.Stride t x c x' r.2 ∧ r.1.tasks = db.tasks.set t x' ∧
    r.1.scheduler = (db.scheduler.serve c).1

/-- Changing one task is putting another one in its place. -/
theorem modify_tasks (hx : db.tasks[t]? = some x) (f : Task → Task) :
    db.tasks.modify t f = db.tasks.set t (f x) := by
  refine List.ext_getElem? fun i => ?_
  rw [List.getElem?_modify, List.getElem?_set]
  by_cases hi : t = i
  · subst hi
    obtain ⟨hlt, rfl⟩ := List.getElem?_eq_some_iff.mp hx
    simp [hlt]
  · simp [hi]

/-- A result that puts a task into another stage is a step if the list has that step. -/
theorem strides_setStage (hx : db.tasks[t]? = some ⟨o, replies, stage⟩) (ht : u.tasks = db.tasks)
    (hs : u.scheduler = (db.scheduler.serve c).1)
    (h : db.Stride t ⟨o, replies, stage⟩ c ⟨o, replies, stage'⟩ es) :
    db.Strides t ⟨o, replies, stage⟩ (u.setStage t stage', es) := by
  refine ⟨c, _, h, ?_, hs⟩
  rw [setStage, ht]
  exact modify_tasks hx _

/-- A result in which a task calls the engine is a step if the task asks for something. -/
theorem strides_call {call : Call} {purpose : Purpose}
    (hx : db.tasks[t]? = some ⟨o, replies, stage⟩) (ht : u.tasks = db.tasks)
    (hs : u.scheduler = db.scheduler) (h : db.Asks o stage call purpose) :
    db.Strides t ⟨o, replies, stage⟩ (u.call t call purpose) := by
  refine ⟨.nothing, _, .asks h, ?_, hs⟩
  rw [Database.call, ht]
  exact modify_tasks hx _

/-- A task that comes to a scope is rejected by it or joins it. -/
theorem strides_approach {work : Work} {s : ScopeId}
    (hx : db.tasks[t]? = some ⟨o, replies, stage⟩) (h : db.Seeks o stage work s) :
    db.Strides t ⟨o, replies, stage⟩ (db.approach t work s) := by
  unfold approach
  split
  case isTrue he => exact strides_setStage hx rfl rfl (.rejected h he)
  case isFalse he => exact strides_setStage hx rfl rfl (.joins h he)

/-- The first step of a closing task, whatever is noticed before it. -/
theorem strides_startClose (counts : List Nat) (hx : db.tasks[t]? = some ⟨o, replies, .fresh⟩)
    (hc : o.closes) :
    db.Strides t ⟨o, replies, .fresh⟩ ((db.startClose t).1,
      counts.map (fun n => .noticed (.closingEarly n)) ++ (db.startClose t).2) :=
  strides_setStage hx rfl rfl (.closes hc)

/-- The notice of a database that closes is one about pending scopes, or there is none. -/
theorem exists_closingNotice (db : Database) :
    ∃ counts : List Nat, db.closingNotice = counts.map fun n => .noticed (.closingEarly n) := by
  unfold closingNotice
  split
  · exact ⟨[_], rfl⟩
  · exact ⟨[], rfl⟩

/-- The first step of a gated task. -/
theorem strides_startGate {goal : Option (Work × Option ScopeId)}
    (hx : db.tasks[t]? = some ⟨o, replies, .fresh⟩) (hc : ¬ o.closes) (hg : o.goal? = goal) :
    db.Strides t ⟨o, replies, .fresh⟩ (db.startGate t goal) :=
  strides_setStage hx rfl rfl (.gates hc hg)

/-- The first step of an operation. -/
theorem strides_launch (hx : db.tasks[t]? = some ⟨o, replies, .fresh⟩) :
    db.Strides t ⟨o, replies, .fresh⟩ (db.launch t o) := by
  have hopen : ¬ (false = true) := Bool.false_ne_true
  cases o with
  | waitStarted s =>
      have h : db.Seeks (.waitStarted s) .fresh .arrive ((some s).getD db.scheduler.community) :=
        .plain (by simp [Operation.goal?]) (by simp [Operation.errand?])
      exact strides_approach hx h
  | waitEnded s =>
      exact strides_setStage hx rfl rfl (.watches (by simp [Operation.errand?, Operation.goal?]) hopen)
  | waitScopeStart s =>
      exact strides_approach hx (.plain (by simp [Operation.goal?]) (by simp [Operation.errand?]))
  | closeScheduler => exact strides_startClose [] hx rfl
  | close =>
      obtain ⟨counts, hn⟩ := db.exists_closingNotice
      rw [launch, hn]
      exact strides_startClose counts hx rfl
  | execute verb sql bindings => exact strides_call hx rfl rfl (.executes rfl)
  | ready => exact strides_startGate hx hopen (by simp [Operation.goal?])
  | query verb sql bindings s => exact strides_startGate hx hopen (by simp [Operation.goal?])
  | prepare sql s => exact strides_startGate hx hopen (by simp [Operation.goal?])
  | transact verb s => exact strides_startGate hx hopen (by simp [Operation.goal?])
  | request table request =>
      rw [launch]
      cases hp : request.plan table with
      | error e =>
          exact strides_setStage hx rfl rfl
            (.ends (.unplanned (by simp [Operation.errand?, Operation.goal?, hp]) hopen))
      | ok plan => exact strides_startGate hx hopen (by simp [Operation.goal?, hp])

/-- The step of a task that has all initializers behind it. -/
theorem strides_pass {goal : Option (Work × Option ScopeId)} {next limit : Nat}
    (hx : db.tasks[t]? = some ⟨o, replies, .initializing goal next limit⟩) :
    db.Strides t ⟨o, replies, .initializing goal next limit⟩ (db.pass t goal) := by
  cases goal with
  | none => exact strides_setStage hx rfl rfl (.ends .gated)
  | some goal => exact strides_approach hx .gated

/-- The step of a task that waits for an initializer. -/
theorem strides_awaitInitializer {goal : Option (Work × Option ScopeId)} {next limit : Nat}
    {i : Initializer} {r : Database × List Event}
    (hx : db.tasks[t]? = some ⟨o, replies, .initializing goal next limit⟩)
    (h : db.awaitInitializer? t goal next limit i = some r) :
    db.Strides t ⟨o, replies, .initializing goal next limit⟩ r := by
  have hset : db.tasks = db.tasks.set t ⟨o, replies, .initializing goal next limit⟩ := by
    obtain ⟨hlt, heq⟩ := List.getElem?_eq_some_iff.mp hx
    rw [← heq, List.set_getElem_self hlt]
  unfold awaitInitializer? at h
  cases hp : i.phase with
  | idle =>
      obtain rfl : _ = r := by simpa [hp] using h
      exact ⟨.nothing, _, .drives (.inl rfl), hset, rfl⟩
  | running =>
      obtain ⟨-, rfl⟩ : _ ∧ _ = r := by simpa [hp] using h
      exact ⟨.nothing, _, .drives (.inr rfl), hset, rfl⟩
  | finished =>
      cases hr : i.result with
      | ok =>
          obtain rfl : _ = r := by simpa [hp, hr] using h
          exact strides_setStage hx rfl rfl .proceeds
      | error e =>
          obtain rfl : _ = r := by simpa [hp, hr] using h
          exact strides_setStage hx rfl rfl (.ends .gated)

/-- The step of a task that its scope lets in. -/
theorem strides_enter {work : Work} {s : ScopeId}
    (hx : db.tasks[t]? = some ⟨o, replies, .awaitingStart work s⟩) (hst : db.scheduler.isStarted s) :
    db.Strides t ⟨o, replies, .awaitingStart work s⟩ (db.enter t work s) := by
  cases work with
  | arrive => exact strides_setStage hx rfl rfl (.ends (.arrived (.inl rfl)))
  | announce => exact strides_setStage hx rfl rfl (.ends (.arrived (.inr rfl)))
  | query verb sql bindings counting => exact strides_call hx rfl rfl (.enters hst rfl)
  | prepare sql => exact strides_call hx rfl rfl (.enters hst rfl)
  | transact verb =>
      rw [enter]
      unfold enterTransaction
      split
      · exact strides_call hx rfl rfl (.transacts (.enters hst) fun _ => rfl)
      · split
        · exact strides_setStage hx rfl rfl (.works (.enters hst) rfl)
        · exact strides_setStage hx rfl rfl (.works (.enters hst) rfl)

/-- The step of a task whose reply comes in. -/
theorem strides_receive {reply : Reply} {purpose : Purpose}
    (hx : db.tasks[t]? = some ⟨o, replies, .replying reply purpose⟩) :
    db.Strides t ⟨o, replies, .replying reply purpose⟩ (db.receive t reply.result purpose) := by
  cases purpose with
  | answer verb counting => exact strides_setStage hx rfl rfl (.answers rfl)
  | handle sql => exact strides_setStage hx rfl rfl (.answers rfl)
  | transacted => exact strides_setStage hx rfl rfl (.ends (.transacting rfl))
  | part verb rest =>
      cases hr : reply.result with
      | error e => exact strides_setStage hx rfl rfl (.ends (.transacting rfl))
      | ok response => exact strides_setStage hx rfl rfl (.works (.begun rfl) rfl)

/-- **Every step that a task takes is in the list.** -/
theorem exists_stride {r : Database × List Event} (h : db.poll? t = some r) :
    ∃ x, db.tasks[t]? = some x ∧ db.Strides t x r := by
  obtain ⟨⟨o, replies, stage⟩, hx, h⟩ := Option.bind_eq_some_iff.mp h
  refine ⟨_, hx, ?_⟩
  cases stage with
  | fresh =>
      cases h
      exact strides_launch hx
  | initializing goal next limit =>
      simp only [pollStage?] at h
      split at h
      · cases h
        exact strides_pass hx
      · split at h
        · cases h
          exact strides_pass hx
        · exact strides_awaitInitializer hx h
  | awaitingStart work s =>
      simp only [pollStage?] at h
      split at h
      case isTrue hst =>
        cases h
        exact strides_enter hx hst
      case isFalse => cases h
  | awaitingEnd s =>
      simp only [pollStage?] at h
      split at h
      · cases h
        exact strides_setStage hx rfl rfl (.ends .ended)
      · cases h
  | draining scopes =>
      simp only [pollStage?] at h
      split at h
      case isTrue ho =>
        cases h
        exact strides_setStage hx rfl rfl (.drains ho)
      case isFalse => cases h
  | queued verb =>
      simp only [pollStage?] at h
      split at h
      · cases h
        exact strides_call hx rfl rfl (.transacts (.begun rfl) fun _ => rfl)
      · split at h
        · cases h
          exact strides_setStage hx rfl rfl (.works (.begun rfl) rfl)
        · cases h
  | preparing verb rest =>
      cases rest with
      | nil =>
          cases h
          exact strides_call hx rfl rfl (.transacts (.begun rfl) fun _ => rfl)
      | cons next rest =>
          cases h
          exact strides_call hx rfl rfl (.transacts (.begun rfl) fun _ => rfl)
  | replying reply purpose =>
      simp only [pollStage?] at h
      split at h
      · cases h
        exact strides_receive hx
      · cases h
  | finished r => cases h

end Database

end ScopedSql
