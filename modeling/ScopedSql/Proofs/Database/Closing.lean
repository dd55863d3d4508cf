import ScopedSql.Proofs.Database.Gate

/-!
# Closing

Once a task has begun to close the scheduler, no more user scopes are handed out, and the chain, its
current community scope and the list of pending scopes stay what they are or shrink. The task waits
for what is outstanding, no less and no more: when all is quiet, it is over exactly if every user scope
was ended. That an ended user scope is started as well, so that the wait comes to an end, is a fact
about the whole chain (`Woven.isOver_of_ended`).
-/

namespace ScopedSql

namespace Scheduler

variable {w : Scheduler} {links : Links} {rest : List ScopeId} {s : ScopeId}

/-- Where a scope was started and it and all scopes linked behind it were ended, all are over. -/
theorem isOver_of_isChain (h : (s :: rest).IsChain w.LinkedTo) (hs : w.isStarted s)
    (he : ∀ r ∈ s :: rest, w.isEnded r) : ∀ r ∈ s :: rest, w.isOver r := by
  induction rest generalizing s with
  | nil =>
      intro r hr
      obtain rfl := List.mem_singleton.mp hr
      exact isOver_iff.mpr ⟨hs, he r hr⟩
  | cons t rest ih =>
      obtain ⟨hst, htail⟩ := List.isChain_cons_cons.mp h
      have hover : w.isOver s := isOver_iff.mpr ⟨hs, he s List.mem_cons_self⟩
      have hrest := ih htail (hst.passed hover).2 fun r hr => he r (List.mem_cons_of_mem _ hr)
      intro r hr
      rcases List.mem_cons.mp hr with rfl | hr
      · exact hover
      · exact hrest r hr

/-- **Where every scope of the chain was ended, every one is over.** -/
theorem Woven.isOver_of_ended (h : w.Woven links) (he : ∀ s ∈ chainOf links, w.isEnded s) :
    ∀ s ∈ chainOf links, w.isOver s :=
  isOver_of_isChain h.strung.linked h.first he

/-- **In a closed scheduler the user scopes decide**: where they were ended, the whole chain was. -/
theorem Sound.isEnded_of_users (h : w.Sound links) (hc : w.closed)
    (hu : ∀ s ∈ usersOf links, w.isEnded s) : ∀ s ∈ chainOf links, w.isEnded s := by
  have hcommunity : ∀ s ∈ chainOf links, w.kind? s = some .community → w.isEnded s := by
    intro s hs hk
    rcases h.superseded s hs hk with rfl | he
    · exact h.closed hc
    · exact he
  intro s hs
  rcases mem_chainOf.mp hs with rfl | ⟨l, hl, rfl | rfl⟩
  · exact hcommunity _ hs h.root
  · exact hu _ (List.mem_map.mpr ⟨l, hl, rfl⟩)
  · exact hcommunity _ hs (h.communities l hl)

end Scheduler

namespace Database

variable {db : Database} {t : TaskId} {x x' : Task} {c : Scheduler.Call} {es : List Event}

/-- No step leads back to the beginning. -/
theorem Stride.begun (h : db.Stride t x c x' es) : x'.stage ≠ .fresh := by
  cases h with
  | @works _ _ _ stage' _ hs =>
      rintro rfl
      cases hs
  | _ => simp

/-- A task that waits for scopes that are over can take a step. -/
theorem poll?_of_allOver {o : Operation} {replies : List Reply} {scopes : List ScopeId}
    (hx : db.tasks[t]? = some ⟨o, replies, .draining scopes⟩) (ho : db.scheduler.allOver scopes) :
    db.poll? t ≠ none := by
  simp [poll?, hx, pollStage?, ho]

end Database

namespace History

variable {h h₀ : History} {m : Move} {interval : Nat} {timed : Bool} {t : TaskId} {x : Task}
  {s : ScopeId}

/-- A task has begun to close the scheduler. -/
def Closing (h : History) (t : TaskId) : Prop :=
  ∃ x, h.db.tasks[t]? = some x ∧ x.operation.closes ∧ x.stage ≠ .fresh

/-- **A scheduler that closes hands out nothing more.** -/
structure ShutDown (h₀ h : History) : Prop where
  /-- A request for a user scope fails. -/
  refuses : (h.db.act .newScope).2.1 = .fault .schedulerClosed
  /-- It leaves the chain as it is. -/
  chain : (h.move (.act .newScope)).chain = h.chain
  /-- It leaves the list of pending scopes as it is. -/
  pending : (h.move (.act .newScope)).db.scheduler.pending = h.db.scheduler.pending
  /-- It leaves the current community scope as it is. -/
  current : (h.move (.act .newScope)).db.scheduler.community = h.db.scheduler.community
  /-- The current community scope is the one of the beginning. -/
  community : h.db.scheduler.community = h₀.db.scheduler.community
  /-- It was ended. -/
  ended : h.db.scheduler.isEnded h.db.scheduler.community
  /-- An operation without a scope that comes to the scheduler fails. -/
  turns_away : ∀ (t : TaskId) (x : Task) work, h.db.tasks[t]? = some x →
    x.operation.errand? = some (work, none) → ∀ m s, .approached t s ∈ (h.db.move m).2 →
      ∀ later, ((h.move m).play later).Rejected t s
  /-- A task that comes to a user scope that is still open passes the gate. -/
  admits : ∀ (t : TaskId) (x : Task), h.db.tasks[t]? = some x → ∀ m, ∀ s ∈ h.users,
    ¬ h.db.scheduler.isEnded s → .approached t s ∈ (h.db.move m).2 →
      ∀ later, ((h.move m).play later).PassesGate t s x

/-- **A scheduler that is closed for good.** -/
structure Drained (h : History) : Prop where
  /-- Every scope of the chain was started and ended. -/
  chain : ∀ s ∈ h.chain, h.db.scheduler.isStarted s ∧ h.db.scheduler.isEnded s
  /-- None is pending. -/
  pending : h.db.scheduler.pending = []
  /-- An operation that comes to a scope of the chain, its own or the current one, fails. -/
  turns_away : ∀ (t : TaskId) (x : Task) work target, h.db.tasks[t]? = some x →
    x.operation.errand? = some (work, target) → (∀ r ∈ target, r ∈ h.chain) →
      ∀ m s, .approached t s ∈ (h.db.move m).2 → ∀ later, ((h.move m).play later).Rejected t s

/-- A task that has begun to close the scheduler has begun for good. -/
theorem Closing.move (hc : h.Closing t) (m : Move) : (h.move m).Closing t := by
  obtain ⟨x, hx, hcloses, hf⟩ := hc
  obtain ⟨c, hh⟩ := h.db.exists_happens m
  obtain ⟨x', hx', ho, ⟨rfl, -⟩ | ⟨-, hst⟩⟩ := hh.exists_task hx
  · exact ⟨x', hx', hcloses, hf⟩
  · exact ⟨x', hx', by rw [ho]; exact hcloses, hst.begun⟩

/-- From the beginning on the scheduler is closed. -/
theorem Sound.closed_of_closing (hs : h.Sound) (hc : h.Closing t) : h.db.scheduler.closed := by
  obtain ⟨x, hx, hcloses, hf⟩ := hc
  have hcl := hs.closes t x hx hcloses
  generalize x.stage = stage at hcl hf
  cases hcl with
  | fresh => exact absurd rfl hf
  | draining hclosed => exact hclosed
  | finished hclosed => exact hclosed

/-- The current community scope of a closed scheduler stays. -/
theorem community_play (hs : h.Sound) (hc : h.db.scheduler.closed) (later : List Move) :
    (h.play later).db.scheduler.community = h.db.scheduler.community := by
  refine (play_induction (p := fun h' => h'.Sound ∧ h'.db.scheduler.closed ∧
    h'.db.scheduler.community = h.db.scheduler.community) ⟨hs, hc, rfl⟩ ?_ later).2.2
  rintro h' m ⟨hs', hc', heq⟩
  obtain ⟨c, -, hv, -⟩ := hs'.exists_served m
  exact ⟨hs'.move m, hv.closed.mpr (.inl hc'), (hv.settled hc').1.trans heq⟩

/-- **A closed scheduler hands out nothing more**, turns away whoever comes without a scope, and lets
those pass that come to an open user scope. -/
theorem Sound.shutDown (hs : h.Sound) (hc : h.db.scheduler.closed)
    (hcommunity : h.db.scheduler.community = h₀.db.scheduler.community) : ShutDown h₀ h := by
  have hnew := Scheduler.newScope_closed hc
  have hended := hs.chain.closed hc
  have hscheduler : (h.move (.act .newScope)).db.scheduler = h.db.scheduler.grow := by
    simp [History.move, Database.move, Database.act, hnew]
  refine {
    refuses := by simp [Database.act, hnew]
    chain := by simp [History.chain, History.move, link?, Database.act, hnew]
    pending := by rw [hscheduler]; rfl
    current := by rw [hscheduler]; rfl
    community := hcommunity
    ended := hended
    turns_away := fun t x work hx he m s ha later => ?_
    admits := fun t x hx m s _ hopen ha later => hs.passesGate hx ha hopen later }
  have heq := hs.eq_target hx he ha
  exact hs.rejected ha (by rw [heq]; exact hended) later

/-- **When all is quiet, a closing task is over exactly if every user scope was ended.** -/
theorem Sound.result?_iff (hs : h.Sound) (hc : h.Closing t) (hq : h.db.Quiet) :
    h.result? t = some (.ok .done) ↔ ∀ s ∈ h.users, h.db.scheduler.isEnded s := by
  have hclosed := hs.closed_of_closing hc
  obtain ⟨⟨o, replies, stage⟩, hx, hcloses, hf⟩ := hc
  have hcl : h.Closes stage := hs.closes t _ hx hcloses
  cases hcl with
  | fresh => exact absurd rfl hf
  | draining _ hscopes _ =>
      refine ⟨fun hres => ?_, fun hu => ?_⟩
      · simp [result?, hx, Task.result?] at hres
      · -- all scopes that it waits for are over, so it could go on
        have hall := hs.chain.isEnded_of_users hclosed hu
        have hover := hs.chain.toWoven.isOver_of_ended hall
        refine absurd (hq t) (Database.poll?_of_allOver hx ?_)
        exact Scheduler.allOver_of_isOver fun s hmem => hover s (hscopes s hmem)
  | finished _ hover _ =>
      refine ⟨fun _ s hus => (Scheduler.isOver_iff.mp (hover s hus)).2, fun _ => ?_⟩
      simp [result?, hx, Task.result?]

/-- **When a closing task is over, the scheduler is closed for good.** -/
theorem Sound.drained (hs : h.Sound) (hc : h.Closing t) (hr : h.result? t = some (.ok .done)) :
    h.Drained := by
  have hclosed := hs.closed_of_closing hc
  obtain ⟨⟨o, replies, stage⟩, hx, hcloses, hf⟩ := hc
  have hcl : h.Closes stage := hs.closes t _ hx hcloses
  cases hcl with
  | fresh => exact absurd rfl hf
  | draining => simp [result?, hx, Task.result?] at hr
  | finished _ hover hpending =>
      have hended := hs.chain.isEnded_of_users hclosed fun s hus =>
        (Scheduler.isOver_iff.mp (hover s hus)).2
      refine ⟨fun s hmem => ?_, hpending, fun i y work target hy he hmem m s ha later => ?_⟩
      · exact Scheduler.isOver_iff.mp (hs.chain.toWoven.isOver_of_ended hended s hmem)
      · refine hs.rejected ha ?_ later
        rw [hs.eq_target hy he ha]
        cases target with
        | none => exact hended _ hs.chain.toWoven.current_mem
        | some r => exact hended r (hmem r rfl)

/-- **Closing drains exactly the outstanding scopes.** Once a task has begun to close the scheduler,
nothing more is handed out; when all is quiet, the task is over exactly if every user scope was ended;
and when it is over, the scheduler is closed for good. -/
theorem close_drains {before later : List Move} (hx : (history interval timed before).Closing t) :
    ShutDown (history interval timed before) (history interval timed (before ++ later)) ∧
      ((history interval timed (before ++ later)).db.Quiet →
        ((history interval timed (before ++ later)).result? t = some (.ok .done) ↔
          ∀ s ∈ (history interval timed (before ++ later)).users,
            (history interval timed (before ++ later)).db.scheduler.isEnded s)) ∧
      ((history interval timed (before ++ later)).result? t = some (.ok .done) →
        (history interval timed (before ++ later)).Drained) := by
  have hs₀ := sound_history interval timed before
  have hs := sound_history interval timed (before ++ later)
  have hplay : history interval timed (before ++ later) =
      (history interval timed before).play later := play_append _ _ _
  have hc : (history interval timed (before ++ later)).Closing t := by
    rw [hplay]
    exact play_induction (p := fun h => h.Closing t) hx (fun h m hc => hc.move m) later
  refine ⟨hs.shutDown (hs.closed_of_closing hc) ?_, hs.result?_iff hc, hs.drained hc⟩
  rw [hplay]
  exact community_play hs₀ (hs₀.closed_of_closing hx) later

/-- A run in which a database is closed while a user scope is open. -/
def closedOver : List Move := [.act .newScope, .act (.issue .close []), .poll 0]

/-- Two statements come to the database: one is bound to the user scope, the other one is not. -/
def lateComers : List Move :=
  [.act (.issue (.query .run "x" NameMap.empty (some ⟨1⟩)) []), .poll 1,
    .act (.issue (.query .run "y" NameMap.empty none) []), .poll 2]

/-- The statement in the open scope is run once, the other one is turned away, and the database is
closed for good when the scope is ended. -/
theorem close_drains_open_scope :
    ShutDown (history 0 false closedOver) (history 0 false (closedOver ++ lateComers)) ∧
      ((history 0 false (closedOver ++ lateComers)).play [.poll 1, .poll 1, .poll 1]).callsOf 1 =
        [.direct .run "x" NameMap.empty] ∧
      ((history 0 false (closedOver ++ lateComers)).play [.poll 2]).Rejected 2 ⟨2⟩ ∧
      (history 0 false (closedOver ++ (lateComers ++ [.act (.finish ⟨1⟩), .poll 0]))).Drained := by
  have hclosing : (history 0 false closedOver).Closing 0 :=
    ⟨⟨.close, [], .draining [⟨1⟩, ⟨2⟩]⟩, by with_unfolding_all rfl, rfl, by simp⟩
  have hbound : (history 0 false (closedOver ++ lateComers)).db.tasks[1]? =
      some ⟨.query .run "x" NameMap.empty (some ⟨1⟩), [],
        .initializing (some (.query .run "x" NameMap.empty false, some ⟨1⟩)) 0 0⟩ := by
    with_unfolding_all rfl
  have hunbound : (history 0 false (closedOver ++ lateComers)).db.tasks[2]? =
      some ⟨.query .run "y" NameMap.empty none, [],
        .initializing (some (.query .run "y" NameMap.empty false, none)) 0 0⟩ := by
    with_unfolding_all rfl
  have hcomes : .approached 1 ⟨1⟩ ∈
      ((history 0 false (closedOver ++ lateComers)).db.move (.poll 1)).2 := by
    with_unfolding_all exact List.mem_singleton_self _
  have hturned : .approached 2 ⟨2⟩ ∈
      ((history 0 false (closedOver ++ lateComers)).db.move (.poll 2)).2 := by
    with_unfolding_all exact List.mem_cons_self
  have hresult : ((history 0 false (closedOver ++ lateComers)).play
      [.poll 1, .poll 1, .poll 1]).result? 1 = some (.ok (.summary 0 0)) := by
    with_unfolding_all rfl
  have hdone : (history 0 false (closedOver ++ (lateComers ++
      [.act (.finish ⟨1⟩), .poll 0]))).result? 0 = some (.ok .done) := by
    with_unfolding_all rfl
  have hshut : ShutDown (history 0 false closedOver) (history 0 false (closedOver ++ lateComers)) :=
    (close_drains hclosing).1
  have hdrained : (history 0 false
      (closedOver ++ (lateComers ++ [.act (.finish ⟨1⟩), .poll 0]))).Drained :=
    (close_drains hclosing).2.2 hdone
  have hpasses := hshut.admits 1 _ hbound (.poll 1) ⟨1⟩ (by decide +kernel) (by decide +kernel)
    hcomes [.poll 1, .poll 1]
  exact ⟨hshut, ((hpasses.once _ _ rfl).result _ hresult).1,
    hshut.turns_away 2 _ _ hunbound rfl (.poll 2) ⟨2⟩ hturned [], hdrained⟩

end History

end ScopedSql
