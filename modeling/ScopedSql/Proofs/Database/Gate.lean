import ScopedSql.Proofs.Database.Following

/-!
# The gate

A gated operation that has its initializers behind it comes to a scope. If that scope was ended by
then, the operation fails and never calls the engine. Else it passes the gate (`PassesGate`): it waits
as long as the scope was not started, and no longer, and it fails only by a reply of the engine. An
operation of one call makes that call and ends with its reply; `Admits` says where it stands after every
move. Who has called the engine has come to its scope before (`NoneSlipsBy`).
-/

namespace ScopedSql

/-- **The one call of an operation**, and what it makes of the answer: nothing but the part that was
asked for. Transaction statements are not among these operations. -/
def Operation.single? : Operation → Option (Call × (Except Fault Response → Except Fault Outcome))
  | .query verb sql bindings _ => some (.direct verb sql bindings, Except.map fun a => verb.read a)
  | .prepare sql _ => some (.prepare sql, Except.map fun _ => .statement sql)
  | .request table r =>
      match r.plan table with
      | .error _ => none
      | .ok plan => some (.direct plan.verb plan.statement.text plan.statement.bindings,
          fun answer => answer.bind (Plan.read plan.verb plan.counting))
  | _ => none

/-- A gated operation makes one call or runs a transaction statement. -/
theorem Operation.work_cases {o : Operation} {work : Work} {target : Option ScopeId}
    (h : o.goal? = some (work, target)) :
    (∃ call purpose, work.call? = some (call, purpose)) ∨ ∃ verb, work = .transact verb := by
  unfold goal? at h
  split at h
  · cases h
    exact .inl ⟨_, _, rfl⟩
  · cases h
    exact .inl ⟨_, _, rfl⟩
  · cases h
    exact .inr ⟨_, rfl⟩
  · split at h
    · cases h
    · cases h
      exact .inl ⟨_, _, rfl⟩
  · cases h

/-- An operation of one call is gated, and its work is that call. -/
theorem Operation.goal?_of_single? {o : Operation} {call : Call}
    {read : Except Fault Response → Except Fault Outcome} (hs : o.single? = some (call, read)) :
    ∃ work target purpose, o.goal? = some (work, target) ∧ work.call? = some (call, purpose) ∧
      ∀ answer, purpose.outcome? answer = some (read answer) := by
  cases o with
  | query verb sql bindings s =>
      obtain ⟨rfl, rfl⟩ : _ = call ∧ _ = read := by simpa [single?] using hs
      refine ⟨_, _, _, rfl, rfl, fun answer => ?_⟩
      cases answer <;> rfl
  | prepare sql s =>
      obtain ⟨rfl, rfl⟩ : _ = call ∧ _ = read := by simpa [single?] using hs
      exact ⟨_, _, _, rfl, rfl, fun answer => rfl⟩
  | request table r =>
      cases hp : r.plan table with
      | error e => simp [single?, hp] at hs
      | ok plan =>
          obtain ⟨rfl, rfl⟩ : _ = call ∧ _ = read := by simpa [single?, hp] using hs
          exact ⟨.query plan.verb plan.statement.text plan.statement.bindings plan.counting,
            plan.target, .answer plan.verb plan.counting, by simp [goal?, hp], rfl, fun answer => rfl⟩
  | _ => simp [single?] at hs

/-- The reply to the call of a work is not for the transaction statements. -/
theorem Work.not_transacting {work : Work} {call : Call} {purpose : Purpose}
    (h : work.call? = some (call, purpose)) (reply : Reply) :
    ¬ (Stage.replying reply purpose).transacting := by
  cases work <;> simp [call?] at h <;> obtain ⟨-, rfl⟩ := h <;> exact Bool.false_ne_true

/-- Whether a gated task can stand in a stage without having come to a scope. -/
def Stage.stray : Stage → Bool
  | .fresh => true
  | .initializing _ _ _ => true
  | .finished _ => true
  | _ => false

namespace Database

variable {db : Database} {t : TaskId} {x x' : Task} {c : Scheduler.Call} {es : List Event}
  {o : Operation} {replies : List Reply}

/-- A task goes on with a transaction statement until it is over. -/
theorem Stride.transacting (h : db.Stride t x c x' es) (hs : x.stage.transacting) :
    x'.stage.transacting ∨ ∃ r, x'.stage = .finished r := by
  cases h with
  | gates => cases hs
  | watches => cases hs
  | closes => cases hs
  | rejected => exact .inr ⟨_, rfl⟩
  | joins hk => cases hk <;> cases hs
  | drives => cases hs
  | proceeds => cases hs
  | asks ha =>
      cases ha with
      | executes => cases hs
      | enters => cases hs
      | transacts _ hp => exact .inl (hp _)
  | works _ hw => exact .inl hw
  | answers => exact .inr ⟨_, rfl⟩
  | ends => exact .inr ⟨_, rfl⟩
  | drains => exact .inr ⟨_, rfl⟩

/-- **A gated task that waits for its scope takes a step** only when the scope was started: it makes
its call, or goes to work on its transaction statement. -/
theorem Stride.of_waiting {work : Work} {s : ScopeId}
    (h : db.Stride t ⟨o, replies, .awaitingStart work s⟩ c x' es)
    (hw : (∃ call purpose, work.call? = some (call, purpose)) ∨ ∃ verb, work = .transact verb) :
    db.scheduler.isStarted s ∧
      ((∃ call purpose, work.call? = some (call, purpose) ∧
          x' = ⟨o, replies.tail, .replying (replies.head?.getD {}) purpose⟩ ∧
            callsOf t es = [call]) ∨
        ∃ verb, work = .transact verb ∧ x'.stage.transacting) := by
  have htransacts : db.Transacts (.awaitingStart work s) →
      db.scheduler.isStarted s ∧ ∃ verb, work = .transact verb := by
    intro ht
    cases ht with
    | begun hb => cases hb
    | enters hs => exact ⟨hs, _, rfl⟩
  cases h with
  | rejected hk => cases hk
  | joins hk => cases hk
  | asks ha =>
      cases ha with
      | enters hs hcall =>
          exact ⟨hs, .inl ⟨_, _, hcall, rfl, by simp [callsOf, Event.callOf?]⟩⟩
      | transacts ht hp =>
          obtain ⟨hs, verb, hverb⟩ := htransacts ht
          exact ⟨hs, .inr ⟨verb, hverb, hp _⟩⟩
  | works ht hstage =>
      obtain ⟨hs, verb, hverb⟩ := htransacts ht
      exact ⟨hs, .inr ⟨verb, hverb, hstage⟩⟩
  | ends he =>
      cases he with
      | arrived harrived =>
          rcases harrived with rfl | rfl <;> rcases hw with ⟨_, _, hw⟩ | ⟨_, hw⟩ <;> cases hw
      | transacting hb => cases hb

/-- **A task that waits for a reply takes a step** only to end with it, unless it is at work on a
transaction statement. -/
theorem Stride.of_replying {reply : Reply} {purpose : Purpose}
    (h : db.Stride t ⟨o, replies, .replying reply purpose⟩ c x' es)
    (hn : ¬ (Stage.replying reply purpose).transacting) :
    ∃ r, purpose.outcome? reply.result = some r ∧ x' = ⟨o, replies, .finished r⟩ ∧
      callsOf t es = [] := by
  have htransacts : ¬ db.Transacts (.replying reply purpose) := by
    rintro (hb | _)
    exact hn hb
  cases h with
  | rejected hk => cases hk
  | joins hk => cases hk
  | asks ha => cases ha with | transacts ht => exact absurd ht htransacts
  | works ht => exact absurd ht htransacts
  | answers hr => exact ⟨_, hr, rfl, rfl⟩
  | ends he => cases he with | transacting hb => exact absurd hb hn

/-- **A gated task that came to no scope before a step** comes to one in it, or makes no call. -/
theorem Stride.arrives {goal : Work × Option ScopeId} (h : db.Stride t x c x' es)
    (hg : x.operation.goal? = some goal) (hs : x.stage.stray) :
    (∃ s, .approached t s ∈ es) ∨ x'.stage.stray ∧ callsOf t es = [] := by
  obtain ⟨o, replies, stage⟩ := x
  cases stage with
  | fresh =>
      obtain ⟨rfl, rfl⟩ := h.of_fresh hg rfl
      exact .inr ⟨rfl, rfl⟩
  | initializing =>
      cases h with
      | rejected => exact .inl ⟨_, List.mem_cons_self⟩
      | joins => exact .inl ⟨_, List.mem_cons_self⟩
      | drives he => rcases he with rfl | rfl <;> exact .inr ⟨rfl, rfl⟩
      | proceeds => exact .inr ⟨rfl, rfl⟩
      | asks ha => cases ha with | transacts ht => cases ht with | begun hb => cases hb
      | works ht => cases ht with | begun hb => cases hb
      | ends => exact .inr ⟨rfl, rfl⟩
  | finished r => exact absurd rfl h.unfinished
  | _ => cases hs

/-- A task whose reply is not held back can take a step. -/
theorem poll?_of_isOpen {reply : Reply} {purpose : Purpose}
    (hx : db.tasks[t]? = some ⟨o, replies, .replying reply purpose⟩) (hs : db.isOpen reply.hold) :
    db.poll? t ≠ none := by
  simp [poll?, hx, pollStage?, hs]

end Database

namespace History

variable {h : History} {m : Move} {interval : Nat} {timed : Bool} {t : TaskId} {x : Task}
  {work : Work} {target : Option ScopeId} {s : ScopeId} {replies : List Reply}

/-- **A task that is over stays so** and makes no more calls. -/
theorem finished_play {r : Except Fault Outcome} (hx : h.db.tasks[t]? = some x)
    (hs : x.stage = .finished r) (moves : List Move) :
    (h.play moves).db.tasks[t]? = some x ∧ (h.play moves).callsOf t = h.callsOf t := by
  refine play_induction (p := fun h' => h'.db.tasks[t]? = some x ∧ h'.callsOf t = h.callsOf t)
    ⟨hx, rfl⟩ (fun h' m ih => ?_) moves
  obtain ⟨c, hh⟩ := h'.db.exists_happens m
  obtain ⟨x', hx', -, ⟨rfl, hcalls⟩ | ⟨-, hst⟩⟩ := hh.exists_task ih.1
  · exact ⟨hx', by rw [callsOf_move, hcalls, List.append_nil, ih.2]⟩
  · exact absurd hs hst.unfinished

/-- **A gated task came to a scope**, or it is stray and has made no call. -/
def Arrives (h : History) : Prop :=
  ∀ (t : TaskId) (x : Task) goal, h.db.tasks[t]? = some x → x.operation.goal? = some goal →
    (∃ s, .approached t s ∈ h.events) ∨ x.stage.stray ∧ h.callsOf t = []

/-- Every move keeps to it: who was stray comes to a scope or makes no call. -/
theorem Arrives.move (ha : h.Arrives) (hs : h.Sound) (m : Move) : (h.move m).Arrives := by
  intro t x' goal hx' hg
  obtain ⟨c, hh⟩ := h.db.exists_happens m
  have hold : (∃ s, .approached t s ∈ h.events) → ∃ s, .approached t s ∈ (h.move m).events :=
    fun ⟨s, he⟩ => ⟨s, List.mem_append_left _ he⟩
  rw [callsOf_move]
  rcases hh.task hx' with ⟨hnone, hf, hcalls⟩ | ⟨x, hx, ⟨rfl, hcalls⟩ | ⟨-, hst⟩⟩
  · rw [hf, hcalls, hs.uncalled t (by simp [hnone])]
    exact .inr ⟨rfl, rfl⟩
  · rw [hcalls, List.append_nil]
    exact (ha t x' goal hx hg).imp_left hold
  · rw [hst.operation] at hg
    rcases ha t x goal hx hg with he | ⟨hstray, hcalls⟩
    · exact .inl (hold he)
    · rw [hcalls, List.nil_append]
      exact (hst.arrives hg hstray).imp_left fun ⟨s, he⟩ => ⟨s, List.mem_append_right _ he⟩

/-- **In every history the gated tasks came to a scope**, or are stray and have made no call. -/
theorem arrives_history (interval : Nat) (timed : Bool) (moves : List Move) :
    (history interval timed moves).Arrives := by
  refine (play_induction (p := fun h => h.Sound ∧ h.Arrives)
    ⟨sound_history interval timed [], fun t x goal hx => ?_⟩
    (fun h m ih => ⟨ih.1.move m, ih.2.move ih.1 m⟩) moves).2
  cases (tasks_opening interval timed t).symm.trans hx

/-- A task that came to a scope did so in one of the moves. -/
theorem exists_move_of_approached {moves : List Move}
    (ha : .approached t s ∈ (history interval timed moves).events) :
    ∃ before m later, moves = before ++ m :: later ∧
      .approached t s ∈ ((history interval timed before).db.move m).2 := by
  refine (exists_move_of_mem ha).resolve_left fun hfirst => ?_
  rw [events_opening] at hfirst
  simp at hfirst

/-- **A task that was admitted to a scope**: it waits for the start, or it was let in. -/
inductive Admits (h : History) (t : TaskId) (work : Work) (s : ScopeId) (replies : List Reply) :
    Prop
  /-- It waits for the start. -/
  | waits {o : Operation} :
      h.db.tasks[t]? = some ⟨o, replies, .awaitingStart work s⟩ → h.callsOf t = [] →
        Admits h t work s replies
  /-- It has made its call. -/
  | asked {o : Operation} {call : Call} {purpose : Purpose} :
      h.db.scheduler.isStarted s → work.call? = some (call, purpose) →
        h.db.tasks[t]? = some ⟨o, replies.tail, .replying (replies.head?.getD {}) purpose⟩ →
          h.callsOf t = [call] → Admits h t work s replies
  /-- It has got the reply. -/
  | answered {o : Operation} {call : Call} {purpose : Purpose} {r : Except Fault Outcome} :
      h.db.scheduler.isStarted s → work.call? = some (call, purpose) →
        h.db.tasks[t]? = some ⟨o, replies.tail, .finished r⟩ →
          purpose.outcome? (replies.head?.getD {}).result = some r →
            h.callsOf t = [call] → Admits h t work s replies
  /-- It is at work on a transaction statement, or over with it. -/
  | transacts {verb : TransactionVerb} {x : Task} :
      h.db.scheduler.isStarted s → work = .transact verb → h.db.tasks[t]? = some x →
        (x.stage.transacting ∨ ∃ r, x.stage = .finished r) → Admits h t work s replies

/-- **Every move keeps to the gate.** -/
theorem Admits.move (ha : h.Admits t work s replies) (hs : h.Sound)
    (hw : (∃ call purpose, work.call? = some (call, purpose)) ∨ ∃ verb, work = .transact verb)
    (m : Move) : (h.move m).Admits t work s replies := by
  obtain ⟨c, hh, hv, -⟩ := hs.exists_served m
  have hstarted := hv.evolves.started s
  have hcalls := h.callsOf_move m t
  cases ha with
  | waits hx hnone =>
      rw [hnone, List.nil_append] at hcalls
      obtain ⟨x', hx', -, ⟨rfl, hno⟩ | ⟨-, hst⟩⟩ := hh.exists_task hx
      · exact .waits hx' (hcalls.trans hno)
      · obtain ⟨hopen, ⟨call, purpose, hcall, rfl, hes⟩ | ⟨verb, hverb, hstage⟩⟩ := hst.of_waiting hw
        · exact .asked (hstarted hopen) hcall hx' (hcalls.trans hes)
        · exact .transacts (hstarted hopen) hverb hx' (.inl hstage)
  | asked hopen hcall hx hone =>
      obtain ⟨x', hx', -, ⟨rfl, hno⟩ | ⟨-, hst⟩⟩ := hh.exists_task hx
      · exact .asked (hstarted hopen) hcall hx' (by rw [hcalls, hno, hone, List.append_nil])
      · obtain ⟨r, hr, rfl, hes⟩ := hst.of_replying (Work.not_transacting hcall _)
        exact .answered (hstarted hopen) hcall hx' hr (by rw [hcalls, hes, hone, List.append_nil])
  | answered hopen hcall hx hr hone =>
      obtain ⟨x', hx', -, ⟨rfl, hno⟩ | ⟨-, hst⟩⟩ := hh.exists_task hx
      · exact .answered (hstarted hopen) hcall hx' hr (by rw [hcalls, hno, hone, List.append_nil])
      · exact absurd rfl hst.unfinished
  | transacts hopen hverb hx hstage =>
      obtain ⟨x', hx', -, ⟨rfl, -⟩ | ⟨-, hst⟩⟩ := hh.exists_task hx
      · exact .transacts (hstarted hopen) hverb hx' hstage
      · rcases hstage with hstage | ⟨r, hr⟩
        · exact .transacts (hstarted hopen) hverb hx' (hst.transacting hstage)
        · exact absurd hr hst.unfinished

/-- **What is seen of a task that was admitted to a scope.** -/
structure KeepsGate (h : History) (t : TaskId) (s : ScopeId) : Prop where
  /-- It makes no call before the scope is started. -/
  shut : ¬ h.db.scheduler.isStarted s → h.callsOf t = []
  /-- When all is quiet, it waits exactly if the scope was not started. -/
  waits_iff : h.db.Quiet → (h.Waits t s ↔ ¬ h.db.scheduler.isStarted s)

/-- **What is seen of an operation of one call** that was admitted to a scope. -/
structure CallsOnce (h : History) (t : TaskId) (s : ScopeId) (call : Call)
    (read : Except Fault Response → Except Fault Outcome) (reply : Reply) : Prop where
  /-- It makes this call or none. -/
  once : h.callsOf t = [] ∨ h.callsOf t = [call]
  /-- When all is quiet and the scope was started, it has made its call. -/
  called : h.db.Quiet → h.db.scheduler.isStarted s → h.callsOf t = [call]
  /-- If it is over, it has made its call, and its result is what the engine answered. -/
  result : ∀ r, h.result? t = some r → h.callsOf t = [call] ∧ r = read reply.result
  /-- When all is quiet, the scope was started and the reply is not held back, it is over. -/
  answered : h.db.Quiet → h.db.scheduler.isStarted s → h.db.isOpen reply.hold →
    h.result? t = some (read reply.result)

/-- **What is seen of a task that passes the gate**, up to its end. -/
structure PassesGate (h : History) (t : TaskId) (s : ScopeId) (x : Task) : Prop
    extends h.KeepsGate t s where
  /-- An operation of one call makes this call and ends with its reply. -/
  once : ∀ call read, x.operation.single? = some (call, read) →
    h.CallsOnce t s call read (x.replies.head?.getD {})
  /-- It fails only by a reply to a call that it has made. -/
  fails : ∀ e, h.result? t = some (.error e) → h.callsOf t ≠ [] ∧ Gives x.replies e

/-- A task that has come to a scope keeps to the gate. -/
theorem Follows.keepsGate (hf : h.Follows t s replies) : h.KeepsGate t s :=
  ⟨hf.callsOf_nil, hf.waits_iff⟩

/-- A task with one call that was admitted to a scope makes this call and ends with its reply. -/
theorem Admits.callsOnce {call : Call} {purpose : Purpose}
    {read : Except Fault Response → Except Fault Outcome} (ha : h.Admits t work s replies)
    (hc : work.call? = some (call, purpose))
    (hr : ∀ answer, purpose.outcome? answer = some (read answer)) :
    h.CallsOnce t s call read (replies.head?.getD {}) := by
  cases ha with
  | waits hx hnone =>
      refine ⟨.inl hnone, fun hq hs => ?_, fun r hres => ?_, fun hq hs => ?_⟩
      · exact absurd (hq t) (Database.poll?_of_isStarted hx hs)
      · simp [result?, hx, Task.result?] at hres
      · exact absurd (hq t) (Database.poll?_of_isStarted hx hs)
  | asked hs hc' hx hone =>
      obtain ⟨rfl, rfl⟩ : call = _ ∧ purpose = _ := by simpa [hc] using hc'
      refine ⟨.inr hone, fun _ _ => hone, fun r hres => ?_, fun hq _ ho => ?_⟩
      · simp [result?, hx, Task.result?] at hres
      · exact absurd (hq t) (Database.poll?_of_isOpen hx ho)
  | @answered _ _ _ r hs hc' hx hres hone =>
      obtain ⟨rfl, rfl⟩ : call = _ ∧ purpose = _ := by simpa [hc] using hc'
      obtain rfl : read (replies.head?.getD {}).result = r := by simpa [hr] using hres
      have hresult : h.result? t = some (read (replies.head?.getD {}).result) := by
        simp [result?, hx, Task.result?]
      refine ⟨.inr hone, fun _ _ => hone, fun r hr' => ⟨hone, ?_⟩, fun _ _ _ => hresult⟩
      rw [hresult] at hr'
      exact (Option.some.inj hr').symm
  | transacts _ hverb =>
      rw [hverb] at hc
      cases hc

/-- A task has failed because its scope was ended, without a call to the engine. -/
def Rejected (h : History) (t : TaskId) (s : ScopeId) : Prop :=
  h.result? t = some (.error (.scopeEnded s.number)) ∧ h.callsOf t = []

/-- A task that comes to a scope has an errand there. -/
theorem Sound.exists_errand (hs : h.Sound) (hx : h.db.tasks[t]? = some x)
    (ha : .approached t s ∈ (h.db.move m).2) : ∃ work target,
      x.operation.errand? = some (work, target) ∧ s = target.getD h.db.scheduler.community := by
  obtain ⟨c, hh, -, -⟩ := hs.exists_served m
  obtain ⟨-, y, work, hy, hk, -, -⟩ := hh.approached ha
  obtain rfl : x = y := by simpa [hx] using hy
  exact ⟨work, hk.errand (hs.fits t x hx)⟩

/-- The scope that a task comes to is the one that it was given, or the current community scope. -/
theorem Sound.eq_target (hs : h.Sound) (hx : h.db.tasks[t]? = some x)
    (he : x.operation.errand? = some (work, target)) (ha : .approached t s ∈ (h.db.move m).2) :
    s = target.getD h.db.scheduler.community := by
  obtain ⟨work', target', he', heq⟩ := hs.exists_errand hx ha
  obtain ⟨-, rfl⟩ : work = work' ∧ target = target' := by simpa [he] using he'
  exact heq

/-- **A task that comes to a scope that was ended fails for good.** -/
theorem Sound.rejected (hs : h.Sound) (ha : .approached t s ∈ (h.db.move m).2)
    (he : h.db.scheduler.isEnded s) (later : List Move) :
    ((h.move m).play later).Rejected t s := by
  obtain ⟨c, hh, -, -⟩ := hs.exists_served m
  obtain ⟨-, x, work, -, -, -, ⟨-, hx'⟩ | ⟨hno, -⟩⟩ := hh.approached ha
  · obtain ⟨hfinal, hsame⟩ := finished_play hx' rfl later
    exact ⟨by simp [result?, hfinal, Task.result?], hsame.trans (hs.callsOf_approached ha)⟩
  · exact absurd he hno

/-- **A gated task that comes to a scope that was not ended is admitted to it.** -/
theorem Sound.admitted (hs : h.Sound) (hx : h.db.tasks[t]? = some x)
    (hg : x.operation.goal? = some (work, target)) (ha : .approached t s ∈ (h.db.move m).2)
    (he : ¬ h.db.scheduler.isEnded s) (later : List Move) :
    ((h.move m).play later).Admits t work s x.replies := by
  obtain ⟨c, hh, -, -⟩ := hs.exists_served m
  obtain ⟨-, y, work', hy, hk, -, ⟨hyes, -⟩ | ⟨-, hx'⟩⟩ := hh.approached ha
  · exact absurd hyes he
  · obtain rfl : x = y := by simpa [hx] using hy
    obtain ⟨target', he', -⟩ := hk.errand (hs.fits t x hx)
    obtain ⟨rfl, -⟩ : work = work' ∧ target = target' := by
      simpa [Operation.errand?_of_goal? hg] using he'
    refine (play_induction (p := fun h => h.Sound ∧ h.Admits t work s x.replies)
      ⟨hs.move m, .waits hx' (hs.callsOf_approached ha)⟩ (fun h m ih => ?_) later).2
    exact ⟨ih.1.move m, ih.2.move ih.1 (Operation.work_cases hg) m⟩

/-- **None slips by**: a gated task that has called the engine came, in one of the moves, to the scope
that it was given, or to the one that was the current community scope then. -/
def NoneSlipsBy (interval : Nat) (timed : Bool) (moves : List Move) : Prop :=
  ∀ (t : TaskId) (x : Task) (work : Work) (target : Option ScopeId),
    (history interval timed moves).db.tasks[t]? = some x →
      x.operation.goal? = some (work, target) → (history interval timed moves).callsOf t ≠ [] →
        ∃ before m later, moves = before ++ m :: later ∧
          .approached t (target.getD (history interval timed before).db.scheduler.community) ∈
            ((history interval timed before).db.move m).2

/-- **In no run a gated operation calls the engine** without having come to its scope. -/
theorem noneSlipsBy (interval : Nat) (timed : Bool) (moves : List Move) :
    NoneSlipsBy interval timed moves := by
  intro t x work target hx hg hc
  obtain ⟨s, he⟩ := (arrives_history interval timed moves t x _ hx hg).resolve_right fun hno =>
    hc hno.2
  obtain ⟨before, m, later, rfl, ha⟩ := exists_move_of_approached he
  refine ⟨before, m, later, rfl, ?_⟩
  -- the task was after the same scope when it came there
  have hs := sound_history interval timed before
  obtain ⟨c, hh, -, -⟩ := hs.exists_served m
  obtain ⟨-, y, work', hy, -⟩ := hh.approached ha
  rw [history_mid] at hx
  have ho : x.operation = y.operation := operation_play hy (m :: later) hx
  rw [← hs.eq_target hy (Operation.errand?_of_goal? (ho ▸ hg)) ha]
  exact ha

/-- **A task that comes to a scope that was not ended passes the gate**, whatever it is after. -/
theorem Sound.passesGate (hs : h.Sound) (hx : h.db.tasks[t]? = some x)
    (ha : .approached t s ∈ (h.db.move m).2) (he : ¬ h.db.scheduler.isEnded s)
    (later : List Move) : ((h.move m).play later).PassesGate t s x := by
  have hf := hs.follows hx ha he later
  refine { hf.keepsGate with once := fun call read hsingle => ?_, fails := fun e => hf.fails }
  obtain ⟨work, target, purpose, hg, hcall, hread⟩ := Operation.goal?_of_single? hsingle
  exact (hs.admitted hx hg ha he later).callsOnce hcall hread

/-- **The gate lets no one slip through and leaves no one behind.** From the move in which a gated
operation comes to its scope: if that scope was ended, the operation fails and never calls the engine.
Else it passes the gate: it makes no call before the scope is started, waits exactly as long, fails only
by a reply, and if it is an operation of one call, it calls once and returns the answer. And no gated
operation of any run calls the engine without such a move. -/
theorem gate_kept {before later : List Move}
    (hx : (history interval timed before).db.tasks[t]? = some x)
    (hg : x.operation.goal? = some (work, target))
    (ha : .approached t s ∈ ((history interval timed before).db.move m).2) :
    s = target.getD (history interval timed before).db.scheduler.community ∧
      ((history interval timed before).db.scheduler.isEnded s →
        (history interval timed (before ++ m :: later)).Rejected t s) ∧
      (¬ (history interval timed before).db.scheduler.isEnded s →
        (history interval timed (before ++ m :: later)).PassesGate t s x) ∧
      ∀ moves, NoneSlipsBy interval timed moves := by
  have hs := sound_history interval timed before
  rw [history_mid]
  exact ⟨hs.eq_target hx (Operation.errand?_of_goal? hg) ha, fun he => hs.rejected ha he later,
    fun he => hs.passesGate hx ha he later, noneSlipsBy interval timed⟩

/-- A scope that is ended while a statement waits for it lets the statement in when its turn comes. -/
theorem gate_kept_ended_early :
    (history 0 false ([.act .newScope, .act .newScope,
        .act (.issue (.query .run "x" NameMap.empty (some ⟨3⟩)) []), .poll 0] ++
      .poll 0 :: [.act (.finish ⟨3⟩), .act (.finish ⟨1⟩), .poll 0])).CallsOnce 0 ⟨3⟩
        (.direct .run "x" NameMap.empty) (Except.map fun a => Verb.read a .run) {} ∧
      (history 0 false ([.act .newScope, .act .newScope,
        .act (.issue (.query .run "x" NameMap.empty (some ⟨3⟩)) []), .poll 0] ++
      .poll 0 :: [.act (.finish ⟨3⟩), .act (.finish ⟨1⟩), .poll 0])).callsOf 0 =
        [.direct .run "x" NameMap.empty] := by
  refine ⟨?_, by decide +kernel⟩
  have hx : (history 0 false [.act .newScope, .act .newScope,
      .act (.issue (.query .run "x" NameMap.empty (some ⟨3⟩)) []), .poll 0]).db.tasks[0]? =
      some ⟨.query .run "x" NameMap.empty (some ⟨3⟩), [],
        .initializing (some (.query .run "x" NameMap.empty false, some ⟨3⟩)) 0 0⟩ := by
    with_unfolding_all rfl
  have ha : .approached 0 ⟨3⟩ ∈ ((history 0 false [.act .newScope, .act .newScope,
      .act (.issue (.query .run "x" NameMap.empty (some ⟨3⟩)) []), .poll 0]).db.move (.poll 0)).2 := by
    with_unfolding_all exact List.mem_singleton_self _
  obtain ⟨-, -, hpasses, -⟩ := gate_kept hx rfl ha
  exact (hpasses (by decide +kernel)).once _ _ rfl

end History

end ScopedSql
