import ScopedSql.Proofs.Database.Initializers
import ScopedSql.Proofs.Database.Serial

/-!
# The cell of the transaction statements

All callers of transaction statements share one cell. A caller takes many steps between the gate and
its result, and others step in between any two of them. `TransactionCell.Grants` lists what one step
of a caller is, as far as the cell is concerned: the cell before and after it, and what becomes of the
caller. Everyone else leaves the cell alone. `exists_treats` puts both together for one move.
-/

namespace ScopedSql

/-! ### Callers -/

/-- The call that runs a transaction statement. -/
def TransactionVerb.call (verb : TransactionVerb) : Call := .prepared .run verb.sql NameMap.empty

/-- The transaction statement that an operation runs. -/
def Operation.verb? : Operation → Option TransactionVerb
  | .transact verb _ => some verb
  | _ => none

/-- How many statements a task has asked for in its attempt to prepare them, if that is under way. -/
def Stage.made? : Stage → Option Nat
  | .preparing _ rest => some (3 - rest.length)
  | .replying _ (.part _ rest) => some (3 - rest.length)
  | _ => none

/-- Whether a task waits for its turn or has it. -/
def Stage.lined : Stage → Bool
  | .queued _ => true
  | .preparing _ _ => true
  | .replying _ (.part _ _) => true
  | _ => false

/-- **Whether a caller can stand in a stage** that runs this statement in this scope. -/
def Stage.Suits (verb : TransactionVerb) (target : Option ScopeId) : Stage → Prop
  | .fresh => True
  | .initializing goal _ _ => goal = some (.transact verb, target)
  | .awaitingStart work _ => work = .transact verb
  | .queued v => v = verb
  | .preparing v _ => v = verb
  | .replying _ (.part v _) => v = verb
  | .replying _ .transacted => True
  | .finished _ => True
  | _ => False

/-- Whether a fault is one that the gate gives. -/
def Fault.barring : Fault → Bool
  | .initialization _ => true
  | .scopeEnded _ => true
  | _ => false

/-- Who is not let in yet, or is over, is not in line. -/
theorem Stage.apart {stage : Stage} (h : stage.outside ∨ ∃ r, stage = .finished r) :
    stage.lined = false ∧ stage.made? = none := by
  rcases h with h | ⟨r, rfl⟩
  · cases stage <;> simp [outside] at h <;> exact ⟨rfl, rfl⟩
  · exact ⟨rfl, rfl⟩

/-- Only a transaction statement is after the work of one. -/
theorem Operation.eq_transact {o : Operation} {verb : TransactionVerb} {target : Option ScopeId}
    (h : o.errand? = some (.transact verb, target)) : o = .transact verb target := by
  cases o with
  | transact =>
      obtain ⟨rfl, rfl⟩ : _ = verb ∧ _ = target := by simpa [errand?, goal?] using h
      rfl
  | request table r =>
      have h : (request table r).goal? = some (.transact verb, target) := h
      simp only [goal?] at h
      split at h <;> simp at h
  | _ => simp [errand?, goal?] at h

/-- **What a step makes of the task** that takes it: it comes to a stage, or calls the engine. -/
inductive Deed where
  /-- It comes to a stage. -/
  | goes (stage : Stage)
  /-- It calls the engine. -/
  | asks (call : Call) (purpose : Purpose)

/-- The task after a step. -/
def Deed.task (x : Task) : Deed → Task
  | .goes stage => { x with stage }
  | .asks _ purpose => { x with
      replies := x.replies.tail, stage := .replying (x.replies.head?.getD {}) purpose }

/-- The engine calls of a step. -/
def Deed.calls : Deed → List Call
  | .goes _ => []
  | .asks call _ => [call]

/-- The engine calls of a task among those of all. -/
theorem callsOf_eq (t : TaskId) (es : List Event) : callsOf t es =
    (es.filterMap Event.called?).filterMap fun a => if a.1 = t then some a.2 else none := by
  rw [callsOf, List.filterMap_filterMap]
  refine congrArg (List.filterMap · es) (funext fun e => ?_)
  cases e <;> rfl

/-- A call is one of a task exactly if it stands among all calls with that task. -/
theorem mem_callsOf_iff {t : TaskId} {es : List Event} {call : Call} :
    call ∈ callsOf t es ↔ (t, call) ∈ es.filterMap Event.called? := by
  rw [callsOf_eq, List.mem_filterMap]
  constructor
  · rintro ⟨⟨i, call'⟩, hmem, heq⟩
    obtain ⟨rfl, ⟨⟩⟩ := Option.ite_none_right_eq_some.mp heq
    exact hmem
  · exact fun hmem => ⟨_, hmem, if_pos rfl⟩

/-! ### One step of a caller -/

/-- **What one step of a caller is at the cell**: its stage, the cell after the step, and what becomes
of the caller. -/
inductive TransactionCell.Grants (cell : TransactionCell) (t : TaskId) (verb : TransactionVerb)
    (target : Option ScopeId) : Stage → TransactionCell → Deed → Prop
  /-- It gets on at the gate. -/
  | nears {stage stage' : Stage} :
      stage.outside → stage'.outside → stage'.Suits verb target →
        Grants cell t verb target stage cell (.goes stage')
  /-- The gate refuses it. -/
  | refused {stage : Stage} {e : Fault} :
      stage.outside → e.barring → Grants cell t verb target stage cell (.goes (.finished (.error e)))
  /-- It is let in and is the first: it begins an attempt. -/
  | first {s : ScopeId} :
      cell.prepared = false → cell.holder = none →
        Grants cell t verb target (.awaitingStart (.transact verb) s) { cell with holder := some t }
          (.goes (.preparing verb TransactionVerb.all))
  /-- It is let in and waits for its turn. -/
  | later {s : ScopeId} {u : TaskId} :
      cell.prepared = false → cell.holder = some u →
        Grants cell t verb target (.awaitingStart (.transact verb) s)
          { cell with queue := cell.queue ++ [t] } (.goes (.queued verb))
  /-- It is let in, or has waited, and all is prepared: it runs its statement. -/
  | served {stage : Stage} :
      (∃ s, stage = .awaitingStart (.transact verb) s) ∨ stage = .queued verb → cell.prepared →
        Grants cell t verb target stage cell (.asks verb.call .transacted)
  /-- Its turn has come: it begins an attempt. -/
  | begins :
      cell.prepared = false → cell.holder = some t →
        Grants cell t verb target (.queued verb) cell (.goes (.preparing verb TransactionVerb.all))
  /-- It asks for the next statement. -/
  | prepares {next : TransactionVerb} {rest : List TransactionVerb} :
      Grants cell t verb target (.preparing verb (next :: rest)) cell
        (.asks (.prepare next.sql) (.part verb rest))
  /-- The statement is prepared. -/
  | succeeds {reply : Reply} {rest : List TransactionVerb} {response : Response} :
      reply.result = .ok response →
        Grants cell t verb target (.replying reply (.part verb rest)) cell
          (.goes (.preparing verb rest))
  /-- The statement is not prepared: it fails, and the turn goes to the next one. -/
  | fails {reply : Reply} {rest : List TransactionVerb} {e : Fault} :
      reply.result = .error e →
        Grants cell t verb target (.replying reply (.part verb rest))
          { cell with holder := cell.queue.head?, queue := cell.queue.tail }
          (.goes (.finished (.error e)))
  /-- All are prepared: it runs its own. -/
  | settles :
      Grants cell t verb target (.preparing verb []) ⟨true, none, []⟩ (.asks verb.call .transacted)
  /-- Its statement was run. -/
  | ends {reply : Reply} :
      Grants cell t verb target (.replying reply .transacted) cell
        (.goes (.finished (reply.result.map fun _ => .done)))

namespace Database

variable {db db' u : Database} {t : TaskId} {x x' : Task} {m : Move} {c : Scheduler.Call}
  {es : List Event} {o : Operation} {replies : List Reply} {stage : Stage} {cell : TransactionCell}
  {verb : TransactionVerb} {target : Option ScopeId}

/-- A task that runs a transaction statement. -/
def caller? (db : Database) (t : TaskId) : Option Task :=
  (db.tasks[t]?).filter fun x => x.operation.verb?.isSome

/-- How many statements a caller has asked for in its attempt, if that is under way. -/
def made? (db : Database) (t : TaskId) : Option Nat := (db.caller? t).bind fun x => x.stage.made?

/-- Whether a caller waits for its turn or has it. -/
def lined (db : Database) (t : TaskId) : Bool := (db.caller? t).any fun x => x.stage.lined

/-- A caller is a task that was issued for a transaction statement. -/
theorem caller?_eq_some_iff : db.caller? t = some x ↔
    db.tasks[t]? = some x ∧ ∃ verb target, x.operation = .transact verb target := by
  rw [caller?, Option.filter_eq_some_iff]
  refine and_congr_right fun _ => ?_
  cases x.operation <;> simp [Operation.verb?]

/-- What a caller has asked for in its attempt is in its stage. -/
theorem made?_of_caller? (hx : db.caller? t = some x) : db.made? t = x.stage.made? := by
  rw [made?, hx, Option.bind_some]

/-- Whether a caller is in line is in its stage. -/
theorem lined_of_caller? (hx : db.caller? t = some x) : db.lined t = x.stage.lined := by
  rw [lined, hx, Option.any_some]

/-- **A step comes to a cell and a deed.** -/
structure Does (db : Database) (t : TaskId) (x : Task) (cell : TransactionCell) (deed : Deed)
    (r : Database × List Event) : Prop where
  /-- The cell after it. -/
  cell : r.1.transaction = cell
  /-- The tasks after it. -/
  tasks : r.1.tasks = db.tasks.set t (deed.task x)
  /-- The engine calls in it. -/
  calls : r.2.filterMap Event.called? = deed.calls.map (t, ·)

section Does

variable {deed : Deed} {r : Database × List Event} {i : TaskId}

/-- What becomes of the task that takes the step. -/
theorem Does.task (h : db.Does t x cell deed r) (hx : db.tasks[t]? = some x) :
    r.1.tasks[t]? = some (deed.task x) := by
  rw [h.tasks, List.getElem?_set_self (List.getElem?_eq_some_iff.mp hx).1]

/-- All other tasks stay as they are. -/
theorem Does.task_ne (h : db.Does t x cell deed r) (hi : t ≠ i) :
    r.1.tasks[i]? = db.tasks[i]? := by
  rw [h.tasks, List.getElem?_set_ne hi]

/-- A caller that takes a step is a caller after it. -/
theorem Does.caller? (h : db.Does t ⟨.transact verb target, replies, stage⟩ cell deed r)
    (hx : db.tasks[t]? = some ⟨.transact verb target, replies, stage⟩) :
    r.1.caller? t = some (deed.task ⟨.transact verb target, replies, stage⟩) := by
  refine caller?_eq_some_iff.mpr ⟨h.task hx, verb, target, ?_⟩
  cases deed <;> rfl

/-- All other callers stay as they are. -/
theorem Does.caller?_ne (h : db.Does t x cell deed r) (hi : t ≠ i) :
    r.1.caller? i = db.caller? i := by
  rw [Database.caller?, h.task_ne hi, Database.caller?]

/-- The calls of a step are those of its deed. -/
theorem Does.callsOf (h : db.Does t x cell deed r) : callsOf t r.2 = deed.calls := by
  rw [callsOf_eq, h.calls]
  simp [List.filterMap_map]

/-- No other task makes a call in the step. -/
theorem Does.callsOf_ne (h : db.Does t x cell deed r) (hi : t ≠ i) : ScopedSql.callsOf i r.2 = [] := by
  rw [callsOf_eq, h.calls]
  simp [hi]

end Does

/-- A step to a stage, with no call to the engine. -/
theorem does_setStage (hx : db.tasks[t]? = some x) (hu : u.transaction = cell)
    (ht : u.tasks = db.tasks) (he : es.filterMap Event.called? = []) :
    db.Does t x cell (.goes stage) (u.setStage t stage, es) := by
  refine ⟨hu, ?_, he⟩
  rw [setStage, ht]
  exact modify_tasks hx _

/-- A step that calls the engine. -/
theorem does_call (hx : db.tasks[t]? = some x) (hu : u.transaction = cell)
    (ht : u.tasks = db.tasks) {call : Call} {purpose : Purpose} :
    db.Does t x cell (.asks call purpose) (u.call t call purpose) := by
  refine ⟨hu, ?_, rfl⟩
  rw [Database.call, ht]
  exact modify_tasks hx _

/-- A caller that waits for the initializers takes a step. -/
theorem grants_initializing {next limit : Nat} {r : Database × List Event}
    (hx : db.tasks[t]? = some ⟨o, replies, .initializing (some (.transact verb, target)) next limit⟩)
    (h : db.poll? t = some r) :
    ∃ cell deed,
      db.Does t ⟨o, replies, .initializing (some (.transact verb, target)) next limit⟩ cell deed r ∧
        db.transaction.Grants t verb target
          (.initializing (some (.transact verb, target)) next limit) cell deed := by
  have hset : db.tasks = db.tasks.set t
      ⟨o, replies, .initializing (some (.transact verb, target)) next limit⟩ := by
    obtain ⟨hlt, heq⟩ := List.getElem?_eq_some_iff.mp hx
    rw [← heq, List.set_getElem_self hlt]
  cases attends_of_poll? hx rfl h with
  | begins => exact ⟨_, .goes _, ⟨rfl, hset, rfl⟩, .nears rfl rfl rfl⟩
  | finishes => exact ⟨_, .goes _, ⟨rfl, hset, rfl⟩, .nears rfl rfl rfl⟩
  | proceeds => exact ⟨_, _, does_setStage hx rfl rfl rfl, .nears rfl rfl rfl⟩
  | fails => exact ⟨_, _, does_setStage hx rfl rfl rfl, .refused rfl rfl⟩
  | passes =>
      rw [pass]
      unfold approach
      split
      · exact ⟨_, _, does_setStage hx rfl rfl rfl, .refused rfl rfl⟩
      · exact ⟨_, _, does_setStage hx rfl rfl rfl, .nears rfl rfl rfl⟩

/-- A caller that is let in takes a step. -/
theorem grants_enter {s : ScopeId}
    (hx : db.tasks[t]? = some ⟨o, replies, .awaitingStart (.transact verb) s⟩) :
    ∃ cell deed,
      db.Does t ⟨o, replies, .awaitingStart (.transact verb) s⟩ cell deed
          (db.enterTransaction t verb) ∧
        db.transaction.Grants t verb target (.awaitingStart (.transact verb) s) cell deed := by
  unfold enterTransaction
  split
  case isTrue hp => exact ⟨_, _, does_call hx rfl rfl, .served (.inl ⟨s, rfl⟩) hp⟩
  case isFalse hp =>
    have hp := Bool.not_eq_true _ ▸ hp
    split
    case isTrue hn =>
      exact ⟨_, _, does_setStage hx rfl rfl rfl, .first hp (Option.isNone_iff_eq_none.mp hn)⟩
    case isFalse hn =>
      obtain ⟨u, hu⟩ := Option.isSome_iff_exists.mp (Option.isSome_iff_ne_none.mpr fun h =>
        hn (Option.isNone_iff_eq_none.mpr h))
      exact ⟨_, _, does_setStage hx rfl rfl rfl, .later hp hu⟩

/-- **Every step of a caller is in the list.** -/
theorem exists_grants {r : Database × List Event}
    (hx : db.tasks[t]? = some ⟨.transact verb target, replies, stage⟩)
    (hs : stage.Suits verb target) (h : db.poll? t = some r) :
    ∃ cell deed, db.Does t ⟨.transact verb target, replies, stage⟩ cell deed r ∧
      db.transaction.Grants t verb target stage cell deed := by
  have hpoll := h
  rw [poll?, hx, Option.bind_some] at h
  cases stage with
  | fresh =>
      cases h
      exact ⟨_, _, does_setStage hx rfl rfl rfl, .nears rfl rfl rfl⟩
  | initializing goal next limit =>
      obtain rfl : goal = _ := hs
      exact grants_initializing hx hpoll
  | awaitingStart work s =>
      obtain rfl : work = _ := hs
      obtain ⟨-, ⟨⟩⟩ := Option.ite_none_right_eq_some.mp h
      exact grants_enter hx
  | queued v =>
      obtain rfl : v = verb := hs
      simp only [pollStage?] at h
      split at h
      case isTrue hp =>
        cases h
        exact ⟨_, _, does_call hx rfl rfl, .served (.inr rfl) hp⟩
      case isFalse hp =>
        obtain ⟨hh, ⟨⟩⟩ := Option.ite_none_right_eq_some.mp h
        exact ⟨_, _, does_setStage hx rfl rfl rfl, .begins (Bool.not_eq_true _ ▸ hp) hh⟩
  | preparing v rest =>
      obtain rfl : v = verb := hs
      cases rest with
      | nil =>
          cases h
          have ht : db.settleTransaction.tasks = db.tasks := rfl
          exact ⟨_, _, does_call hx rfl ht, .settles⟩
      | cons next rest =>
          cases h
          exact ⟨_, _, does_call hx rfl rfl, .prepares⟩
  | replying reply purpose =>
      obtain ⟨-, ⟨⟩⟩ := Option.ite_none_right_eq_some.mp h
      cases purpose with
      | part v rest =>
          obtain rfl : v = verb := hs
          cases hr : reply.result with
          | ok response => exact ⟨_, _, does_setStage hx rfl rfl rfl, .succeeds hr⟩
          | error e => exact ⟨_, _, does_setStage hx rfl rfl rfl, .fails hr⟩
      | transacted => exact ⟨_, _, does_setStage hx rfl rfl rfl, .ends⟩
      | answer => cases hs
      | handle => cases hs
  | finished => cases h
  | awaitingEnd => cases hs
  | draining => cases hs

/-! ### Everyone else -/

@[simp] theorem transaction_approach (db : Database) (t : TaskId) (work : Work) (s : ScopeId) :
    (db.approach t work s).1.transaction = db.transaction := by
  unfold approach
  split <;> rfl

@[simp] theorem transaction_pass (db : Database) (t : TaskId)
    (goal : Option (Work × Option ScopeId)) : (db.pass t goal).1.transaction = db.transaction := by
  cases goal with
  | none => rfl
  | some goal => exact transaction_approach db t _ _

@[simp] theorem transaction_launch (db : Database) (t : TaskId) (o : Operation) :
    (db.launch t o).1.transaction = db.transaction := by
  cases o with
  | request table r =>
      rw [launch]
      split <;> rfl
  | waitStarted s => exact transaction_approach db t _ _
  | waitScopeStart s => exact transaction_approach db t _ _
  | _ => rfl

/-- **A task that is not at work on a transaction statement** leaves the cell alone. -/
theorem transaction_poll? {r : Database × List Event} (hx : db.tasks[t]? = some x)
    (hn : ¬ db.Transacts x.stage) (h : db.poll? t = some r) : r.1.transaction = db.transaction := by
  obtain ⟨o, replies, stage⟩ := x
  have hpoll := h
  rw [poll?, hx, Option.bind_some] at h
  cases stage with
  | fresh =>
      cases h
      exact transaction_launch db t o
  | initializing goal next limit =>
      cases attends_of_poll? hx rfl hpoll with
      | passes => exact transaction_pass db t goal
      | _ => rfl
  | awaitingStart work s =>
      obtain ⟨hst, ⟨⟩⟩ := Option.ite_none_right_eq_some.mp h
      cases work with
      | transact verb => exact absurd (.enters hst) hn
      | _ => rfl
  | awaitingEnd s =>
      obtain ⟨-, ⟨⟩⟩ := Option.ite_none_right_eq_some.mp h
      rfl
  | draining scopes =>
      obtain ⟨-, ⟨⟩⟩ := Option.ite_none_right_eq_some.mp h
      rfl
  | queued verb => exact absurd (.begun rfl) hn
  | preparing verb rest => exact absurd (.begun rfl) hn
  | replying reply purpose =>
      obtain ⟨-, ⟨⟩⟩ := Option.ite_none_right_eq_some.mp h
      cases purpose with
      | part verb rest => exact absurd (.begun rfl) hn
      | _ => rfl
  | finished r => cases h

/-- A client leaves the cell alone. -/
theorem transaction_act (db : Database) (a : Action) :
    (db.act a).1.transaction = db.transaction := by
  cases a with
  | start s =>
      rw [act]
      split <;> rfl
  | _ => rfl

/-- **Only callers are at work on transaction statements.** -/
theorem Stride.transact (h : db.Stride t x c x' es) (hf : x.operation.Fits x.stage)
    (hw : x.stage.transacting → ∃ verb target, x.operation = .transact verb target)
    (hw' : x'.stage.transacting) : ∃ verb target, x'.operation = .transact verb target := by
  have htransacts : db.Transacts x.stage → ∃ verb target, x.operation = .transact verb target := by
    obtain ⟨o, replies, stage⟩ := x
    rintro (hb | _)
    · exact hw hb
    · obtain ⟨target, he, -⟩ := hf
      exact ⟨_, target, Operation.eq_transact he⟩
  cases h with
  | asks ha =>
      cases ha with
      | executes => cases hw'
      | enters _ hcall => exact absurd hw' (Work.not_transacting hcall _)
      | transacts ht => exact htransacts ht
  | works ht => exact htransacts ht
  | drives => exact hw hw'
  | _ => cases hw'

/-! ### One move -/

/-- **What one move is to the callers**: one more task comes, or nothing, or a step of one of them. -/
inductive Treats (db : Database) (m : Move) (db' : Database) (es : List Event) : Prop
  /-- A task comes. -/
  | comes {o : Operation} {replies : List Reply} :
      m = .act (.issue o replies) → db'.transaction = db.transaction →
        db'.tasks = db.tasks ++ [⟨o, replies, .fresh⟩] → es.filterMap Event.called? = [] →
          Treats db m db' es
  /-- It is nothing to the callers. -/
  | aside :
      db'.transaction = db.transaction → (∀ i, db'.caller? i = db.caller? i) →
        (∀ a ∈ es.filterMap Event.called?, db.caller? a.1 = none) → Treats db m db' es
  /-- A caller takes a step. -/
  | turn {t : TaskId} {verb : TransactionVerb} {target : Option ScopeId} {replies : List Reply}
      {stage : Stage} {cell : TransactionCell} {deed : Deed} :
      db.tasks[t]? = some ⟨.transact verb target, replies, stage⟩ →
        db.Does t ⟨.transact verb target, replies, stage⟩ cell deed (db', es) →
          db.transaction.Grants t verb target stage cell deed → Treats db m db' es

/-- A step of another task is nothing to the callers. -/
theorem Stride.aside (h : db.Stride t x c x' es) (hx : db.tasks[t]? = some x)
    (hv : x.operation.verb? = none) (hu : u.tasks = db.tasks.set t x') :
    (∀ i, u.caller? i = db.caller? i) ∧
      ∀ a ∈ es.filterMap Event.called?, db.caller? a.1 = none := by
  constructor
  · intro i
    rw [caller?, caller?, hu, List.getElem?_set]
    by_cases hi : t = i
    · rw [← hi, hx, if_pos rfl, if_pos (List.getElem?_eq_some_iff.mp hx).1]
      simp [Option.filter, h.operation, hv]
    · rw [if_neg hi]
  · rintro ⟨i, call⟩ hmem
    by_cases hi : t = i
    · subst hi
      simp [caller?, hx, Option.filter, hv]
    · have hcall := mem_callsOf_iff.mpr hmem
      rw [h.callsOf_ne hi] at hcall
      cases hcall

/-- **Every move is one of these** where callers stand in stages that suit them, and no one else is at
work on a transaction statement. -/
theorem exists_treats (hs : ∀ (t : TaskId) x, db.tasks[t]? = some x → ∀ verb target,
      x.operation = .transact verb target → x.stage.Suits verb target)
    (hn : ∀ (t : TaskId) x, db.tasks[t]? = some x → x.operation.verb? = none →
      ¬ db.Transacts x.stage) (m : Move) :
    db.Treats m (db.move m).1 (db.move m).2 := by
  cases m with
  | act a =>
      by_cases ha : ∀ o replies, a ≠ .issue o replies
      · obtain ⟨ht, -, he⟩ := db.move_act ha
        refine .aside (db.transaction_act a) (fun i => by rw [caller?, ht, caller?]) ?_
        intro e hmem
        simp [he, Event.called?] at hmem
      · obtain ⟨o, replies, rfl⟩ : ∃ o replies, a = .issue o replies := by simpa using ha
        exact .comes rfl rfl rfl rfl
  | poll t =>
      rw [move]
      cases hr : db.poll? t with
      | none => exact .aside rfl (fun _ => rfl) fun _ he => absurd he List.not_mem_nil
      | some r =>
          obtain ⟨x, hx, c, x', hst, ht, -⟩ := exists_stride hr
          cases hv : x.operation.verb? with
          | some verb =>
              obtain ⟨o, replies, stage⟩ := x
              obtain ⟨target, rfl⟩ : ∃ target, o = .transact verb target := by
                cases o <;> simp [Operation.verb?] at hv
                exact ⟨_, by rw [hv]⟩
              obtain ⟨cell, deed, hdoes, hg⟩ := exists_grants hx (hs t _ hx verb target rfl) hr
              exact .turn hx hdoes hg
          | none =>
              obtain ⟨hcallers, hcalls⟩ := hst.aside hx hv ht
              exact .aside (transaction_poll? hx (hn t _ hx hv) hr) hcallers hcalls

end Database

end ScopedSql
