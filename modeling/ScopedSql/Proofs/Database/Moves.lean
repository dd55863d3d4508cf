import ScopedSql.Proofs.Database.Steps

/-!
# What one move can do

A move is a step of a task or something that a client does. `Happens` lists what it comes to: the
call to the scheduler, the database after it, and what happened. `exists_happens` finds every move in
the list, and the rest of the module reads off what a move does to the scheduler, to a task and to the
events.
-/

namespace ScopedSql

/-- The event of a scope. -/
def Event.scope? : Event → Option ScopeEvent
  | .scope e => some e
  | _ => none

/-- The call to the scheduler that an action makes. -/
def Action.call : Action → Scheduler.Call
  | .newScope => .newScope
  | .create kind interval => .create kind interval
  | .start s => .start s
  | .finish s => .finish s
  | .abandon s => .abandon s
  | .advance ms => .advance ms
  | .disown => .disown
  | _ => .nothing

namespace Database

variable {db : Database} {t : TaskId} {x x' : Task} {c : Scheduler.Call} {es : List Event}

/-- **What one move does**: the call to the scheduler, the database after it, and what happened. -/
inductive Happens (db : Database) : Move → Scheduler.Call → Database → List Event → Prop
  /-- A client issues an operation. -/
  | issued {operation : Operation} {replies : List Reply} {db' : Database} :
      db'.tasks = db.tasks ++ [⟨operation, replies, .fresh⟩] → db'.scheduler = db.scheduler →
        Happens db (.act (.issue operation replies)) .nothing db' []
  /-- A client does something else. -/
  | served (action : Action) {db' : Database} :
      (∀ operation replies, action ≠ .issue operation replies) → db'.tasks = db.tasks →
        db'.scheduler = (db.scheduler.serve action.call).1 →
          Happens db (.act action) action.call db' ((db.scheduler.serve action.call).2.map .scope)
  /-- A task takes a step. -/
  | strode {t : TaskId} {x x' : Task} {c : Scheduler.Call} {es : List Event} {db' : Database} :
      db.poll? t = some (db', es) → db.tasks[t]? = some x → db.Stride t x c x' es →
        db'.tasks = db.tasks.set t x' → db'.scheduler = (db.scheduler.serve c).1 →
          Happens db (.poll t) c db' es
  /-- A task can take no step. -/
  | stuck {t : TaskId} : db.poll? t = none → Happens db (.poll t) .nothing db []

/-- A client that does not issue an operation leaves the tasks as they are and makes one call. -/
theorem move_act (db : Database) {action : Action}
    (h : ∀ operation replies, action ≠ .issue operation replies) :
    (db.move (.act action)).1.tasks = db.tasks ∧
      (db.move (.act action)).1.scheduler = (db.scheduler.serve action.call).1 ∧
        (db.move (.act action)).2 = (db.scheduler.serve action.call).2.map .scope := by
  cases action with
  | issue operation replies => exact absurd rfl (h operation replies)
  | start s =>
      simp only [move, act, Action.call, Scheduler.serve]
      cases db.scheduler.start s <;> exact ⟨rfl, rfl, rfl⟩
  | newScope => exact ⟨rfl, rfl, rfl⟩
  | create kind interval => exact ⟨rfl, rfl, rfl⟩
  | finish s => exact ⟨rfl, rfl, rfl⟩
  | abandon s => exact ⟨rfl, rfl, rfl⟩
  | addInitializer hold result => exact ⟨rfl, rfl, rfl⟩
  | release hold => exact ⟨rfl, rfl, rfl⟩
  | advance ms => exact ⟨rfl, rfl, rfl⟩
  | disown => exact ⟨rfl, rfl, rfl⟩

/-- **Every move is one of these.** -/
theorem exists_happens (db : Database) (m : Move) :
    ∃ c, db.Happens m c (db.move m).1 (db.move m).2 := by
  cases m with
  | poll t =>
      rw [move]
      cases h : db.poll? t with
      | none => exact ⟨_, .stuck h⟩
      | some r =>
          obtain ⟨x, hx, c, x', hst, ht, hs⟩ := exists_stride h
          exact ⟨c, .strode h hx hst ht hs⟩
  | act action =>
      by_cases h : ∀ operation replies, action ≠ .issue operation replies
      · obtain ⟨ht, hs, he⟩ := db.move_act h
        rw [he]
        exact ⟨_, .served action h ht hs⟩
      · obtain ⟨operation, replies, rfl⟩ : ∃ operation replies, action = .issue operation replies := by
          simpa using h
        exact ⟨_, .issued rfl rfl⟩

namespace Happens

variable {m : Move} {db' : Database}

/-- The scheduler after a move has served the call. -/
theorem scheduler (h : db.Happens m c db' es) : db'.scheduler = (db.scheduler.serve c).1 := by
  cases h with
  | issued _ hs => exact hs
  | served _ _ _ hs => exact hs
  | strode _ _ _ _ hs => exact hs
  | stuck => rfl

/-- What happened to scopes in a move is what the call tells of. -/
theorem scope_events (h : db.Happens m c db' es) :
    es.filterMap Event.scope? = (db.scheduler.serve c).2 := by
  have hmap : ∀ events : List ScopeEvent,
      (events.map Event.scope).filterMap Event.scope? = events := by
    intro events
    rw [List.filterMap_map]
    exact List.filterMap_some
  cases h with
  | issued => rfl
  | served => exact hmap _
  | stuck => rfl
  | strode _ _ hst _ _ =>
      cases hst with
      | @closes _ _ counts =>
          have hnone : (counts.map fun n => Event.noticed (.closingEarly n)).filterMap Event.scope? =
              [] := by
            simp [List.filterMap_map, Event.scope?, Function.comp_def]
          rw [List.filterMap_append, hnone, hmap, List.nil_append]
      | drives he => rcases he with rfl | rfl <;> rfl
      | _ => rfl

/-- The only notice that a move gives is that of a database that closes early. -/
theorem noticed {n : Notice} (h : db.Happens m c db' es) (hn : .noticed n ∈ es) :
    ∃ count, n = .closingEarly count := by
  cases h with
  | issued => cases hn
  | served => simp at hn
  | stuck => cases hn
  | strode _ _ hst _ _ =>
      cases hst with
      | closes =>
          obtain ⟨count, -, rfl⟩ : ∃ count ∈ _, Notice.closingEarly count = n := by simpa using hn
          exact ⟨count, rfl⟩
      | drives he => rcases he with rfl | rfl <;> simp at hn
      | _ => simp at hn

/-- **A task after a move** is new, or as it was, or has taken the step of the move. -/
theorem task (h : db.Happens m c db' es) (hx : db'.tasks[t]? = some x') :
    db.tasks[t]? = none ∧ x'.stage = .fresh ∧ callsOf t es = [] ∨
      ∃ x, db.tasks[t]? = some x ∧
        (x' = x ∧ callsOf t es = [] ∨ m = .poll t ∧ db.Stride t x c x' es) := by
  cases h with
  | issued ht _ =>
      rw [ht, List.getElem?_append] at hx
      split at hx
      · exact .inr ⟨x', hx, .inl ⟨rfl, rfl⟩⟩
      · rename_i hlt
        obtain ⟨-, rfl⟩ : t - db.tasks.length = 0 ∧ _ = x' := by
          simpa [List.getElem?_singleton] using hx
        exact .inl ⟨List.getElem?_eq_none (Nat.le_of_not_lt hlt), rfl, rfl⟩
  | served _ _ ht _ =>
      rw [ht] at hx
      exact .inr ⟨x', hx, .inl ⟨rfl, callsOf_scopes t _⟩⟩
  | @strode i y y' c es db' _ hy hst ht _ =>
      rw [ht, List.getElem?_set] at hx
      split at hx
      · rename_i hi
        subst hi
        have hy' : y' = x' := by simpa using (Option.ite_none_right_eq_some.mp hx).2
        subst hy'
        exact .inr ⟨y, hy, .inr ⟨rfl, hst⟩⟩
      · exact .inr ⟨x', hx, .inl ⟨rfl, hst.callsOf_ne ‹_›⟩⟩
  | stuck => exact .inr ⟨x', hx, .inl ⟨rfl, rfl⟩⟩

/-- Tasks stay, and do what they were issued for. -/
theorem exists_task (h : db.Happens m c db' es) (hx : db.tasks[t]? = some x) :
    ∃ x', db'.tasks[t]? = some x' ∧ x'.operation = x.operation ∧
      (x' = x ∧ callsOf t es = [] ∨ m = .poll t ∧ db.Stride t x c x' es) := by
  have hlen : t < db'.tasks.length := by
    have hlt := (List.getElem?_eq_some_iff.mp hx).1
    cases h with
    | issued ht _ => rw [ht, List.length_append]; exact Nat.lt_add_right _ hlt
    | served _ _ ht _ => rw [ht]; exact hlt
    | strode _ _ _ ht _ => rw [ht, List.length_set]; exact hlt
    | stuck => exact hlt
  have hx' := List.getElem?_eq_getElem hlen
  rcases h.task hx' with ⟨hnone, -⟩ | ⟨y, hy, hcase⟩
  · rw [hx] at hnone
    cases hnone
  · obtain rfl : x = y := by simpa [hx] using hy
    refine ⟨_, hx', ?_, hcase⟩
    rcases hcase with ⟨heq, -⟩ | ⟨-, hst⟩
    · rw [heq]
    · exact hst.operation

/-- A task that is not there makes no call. -/
theorem callsOf_none (h : db.Happens m c db' es) (hx : db.tasks[t]? = none) : callsOf t es = [] := by
  cases h with
  | issued => rfl
  | served => exact callsOf_scopes t _
  | @strode i y _ _ _ _ _ hy hst =>
      refine hst.callsOf_ne ?_
      rintro rfl
      rw [hx] at hy
      cases hy
  | stuck => rfl

/-- **A task comes to a scope** in its own step, and is rejected or waits. -/
theorem approached {s : ScopeId} (h : db.Happens m c db' es) (he : .approached t s ∈ es) :
    m = .poll t ∧ ∃ x work, db.tasks[t]? = some x ∧ db.Seeks x.operation x.stage work s ∧
      callsOf t es = [] ∧
      (db.scheduler.isEnded s ∧
          db'.tasks[t]? = some { x with stage := .finished (.error (.scopeEnded s.number)) } ∨
        ¬ db.scheduler.isEnded s ∧
          db'.tasks[t]? = some { x with stage := .awaitingStart work s }) := by
  cases h with
  | issued => cases he
  | served => simp at he
  | stuck => cases he
  | @strode i x x' c es db' _ hx hst ht _ =>
      have hlt := (List.getElem?_eq_some_iff.mp hx).1
      cases hst with
      | @rejected _ _ _ work r hk hend =>
          obtain ⟨rfl, rfl⟩ : t = i ∧ s = r := by simpa using he
          refine ⟨rfl, _, work, hx, hk, rfl, .inl ⟨hend, ?_⟩⟩
          rw [ht, List.getElem?_set_self hlt]
      | @joins _ _ _ work r hk hend =>
          obtain ⟨rfl, rfl⟩ : t = i ∧ s = r := by simpa using he
          refine ⟨rfl, _, work, hx, hk, rfl, .inr ⟨hend, ?_⟩⟩
          rw [ht, List.getElem?_set_self hlt]
      | drives hd => rcases hd with rfl | rfl <;> simp at he
      | _ => simp at he

/-- **An engine call** comes from the step of the task that makes it. -/
theorem called {call : Call} (h : db.Happens m c db' es) (he : .called t call ∈ es) :
    m = .poll t ∧ es = [.called t call] ∧ c = .nothing ∧ ∃ x purpose, db.tasks[t]? = some x ∧
      db.Asks x.operation x.stage call purpose ∧
      db'.tasks[t]? = some
        { x with replies := x.replies.tail, stage := .replying (x.replies.head?.getD {}) purpose } := by
  cases h with
  | issued => cases he
  | served action => simp at he
  | stuck => cases he
  | @strode i x x' c es db' _ hx hst ht _ =>
      have hlt := (List.getElem?_eq_some_iff.mp hx).1
      cases hst with
      | @asks _ _ _ call' purpose ha =>
          obtain ⟨rfl, rfl⟩ : t = i ∧ call = call' := by simpa using he
          refine ⟨rfl, rfl, rfl, _, purpose, hx, ha, ?_⟩
          rw [ht, List.getElem?_set_self hlt]
      | drives hd => rcases hd with rfl | rfl <;> simp at he
      | _ => simp at he

/-- What a client does makes the call of the action. -/
theorem call_eq {action : Action} (h : db.Happens (.act action) c db' es) : c = action.call := by
  cases h <;> rfl

/-- What tasks ask for is to close: other calls come from clients. -/
theorem exists_action (h : db.Happens m c db' es)
    (hc : c ≠ .nothing ∧ c ≠ .beginClose ∧ c ≠ .endClose) :
    ∃ action : Action, m = .act action ∧ action.call = c := by
  cases h with
  | issued => exact absurd rfl hc.1
  | served action => exact ⟨action, rfl, rfl⟩
  | strode _ _ hst => cases hst <;> simp at hc
  | stuck => exact absurd rfl hc.1

/-- Only an end by a client ends a scope by name. -/
theorem eq_finish {s : ScopeId} (h : db.Happens m (.finish s) db' es) : m = .act (.finish s) := by
  obtain ⟨action, rfl, hcall⟩ := h.exists_action (by simp)
  cases action <;> simp [Action.call] at hcall ⊢
  exact hcall

/-- Only a start by a client starts a scope by name. -/
theorem eq_start {s : ScopeId} (h : db.Happens m (.start s) db' es) : m = .act (.start s) := by
  obtain ⟨action, rfl, hcall⟩ := h.exists_action (by simp)
  cases action <;> simp [Action.call] at hcall ⊢
  exact hcall

/-- Only clients request user scopes. -/
theorem eq_newScope (h : db.Happens m .newScope db' es) : m = .act .newScope := by
  obtain ⟨action, rfl, hcall⟩ := h.exists_action (by simp)
  cases action <;> simp [Action.call] at hcall ⊢

/-- Only clients drop the last handle. -/
theorem eq_disown (h : db.Happens m .disown db' es) : m = .act .disown := by
  obtain ⟨action, rfl, hcall⟩ := h.exists_action (by simp)
  cases action <;> simp [Action.call] at hcall ⊢

end Happens

end Database

end ScopedSql
