import ScopedSql.Proofs.Database.History

/-!
# Initializers run in order

Whoever waits drives an initializer on: no one owns it, and tasks that came at different times wait
for different stretches of a list that still grows. `Attends` says what one step of a waiting task
can be, and `Turns` what one move does to the initializers. From the second follows what every
history preserves (`Paced`): the initializers that began are the first ones in order, all but the
last of them have succeeded, and at most that one is under way. So each begins at most once, and only
after all before it have succeeded (`Paced.succeeded_of_began`).
-/

namespace ScopedSql

/-- The initializer that begins in an event. -/
def Event.began? : Event → Option Nat
  | .began i => some i
  | _ => none

/-- The initializer that ends in an event. -/
def Event.initialized? : Event → Option Nat
  | .initialized i => some i
  | _ => none

/-- Whether a task waits for initializers. -/
def Stage.awaits : Stage → Bool
  | .initializing _ _ _ => true
  | _ => false

namespace Database

variable {db db' : Database} {t : TaskId} {x x' : Task} {c : Scheduler.Call} {es : List Event}
  {m : Move} {goal : Option (Work × Option ScopeId)} {next limit : Nat} {i : Nat}

/-- **An initializer is over**, with this result. -/
def EndedWith (db : Database) (i : Nat) (r : Except Fault Unit) : Prop :=
  ∃ x, db.initializers[i]? = some x ∧ x.phase = .finished ∧ x.result = r

/-- The phase of an initializer that is over. -/
theorem EndedWith.phase_eq {r : Except Fault Unit} {y : Initializer} (h : db.EndedWith i r)
    (hy : db.initializers[i]? = some y) : y.phase = .finished := by
  obtain ⟨z, hz, hp, -⟩ := h
  rw [Option.some.inj (hy.symm.trans hz), hp]

/-! ### What leaves the initializers alone -/

@[simp] theorem initializers_setStage (db : Database) (t : TaskId) (stage : Stage) :
    (db.setStage t stage).initializers = db.initializers := rfl

@[simp] theorem initializers_complete (db : Database) (t : TaskId) (r : Except Fault Outcome) :
    (db.complete t r).1.initializers = db.initializers := rfl

@[simp] theorem initializers_call (db : Database) (t : TaskId) (call : Call) (purpose : Purpose) :
    (db.call t call purpose).1.initializers = db.initializers := rfl

@[simp] theorem initializers_startGate (db : Database) (t : TaskId)
    (goal : Option (Work × Option ScopeId)) :
    (db.startGate t goal).1.initializers = db.initializers := rfl

@[simp] theorem initializers_startClose (db : Database) (t : TaskId) :
    (db.startClose t).1.initializers = db.initializers := rfl

@[simp] theorem initializers_approach (db : Database) (t : TaskId) (work : Work) (s : ScopeId) :
    (db.approach t work s).1.initializers = db.initializers := by
  unfold approach
  split <;> rfl

@[simp] theorem initializers_pass (db : Database) (t : TaskId)
    (goal : Option (Work × Option ScopeId)) : (db.pass t goal).1.initializers = db.initializers := by
  cases goal with
  | none => rfl
  | some goal => exact initializers_approach db t _ _

@[simp] theorem initializers_enter (db : Database) (t : TaskId) (work : Work) (s : ScopeId) :
    (db.enter t work s).1.initializers = db.initializers := by
  cases work with
  | transact verb =>
      rw [enter, enterTransaction]
      split
      · rfl
      · split <;> rfl
  | _ => rfl

@[simp] theorem initializers_receive (db : Database) (t : TaskId) (result : Except Fault Response)
    (purpose : Purpose) : (db.receive t result purpose).1.initializers = db.initializers := by
  cases purpose with
  | part verb rest => cases result <;> rfl
  | _ => rfl

@[simp] theorem initializers_launch (db : Database) (t : TaskId) (o : Operation) :
    (db.launch t o).1.initializers = db.initializers := by
  cases o with
  | request table r =>
      rw [launch]
      split <;> rfl
  | _ => simp [launch]

/-- **A task that does not wait for initializers** leaves them alone. -/
theorem initializers_poll? {r : Database × List Event} (hx : db.tasks[t]? = some x)
    (hs : x.stage.awaits = false) (h : db.poll? t = some r) : r.1.initializers = db.initializers := by
  obtain ⟨o, replies, stage⟩ := x
  rw [poll?, hx, Option.bind_some] at h
  cases stage with
  | fresh =>
      cases h
      exact initializers_launch db t o
  | initializing => cases hs
  | awaitingStart work s =>
      obtain ⟨-, ⟨⟩⟩ := Option.ite_none_right_eq_some.mp h
      exact initializers_enter db t work s
  | awaitingEnd s =>
      obtain ⟨-, ⟨⟩⟩ := Option.ite_none_right_eq_some.mp h
      rfl
  | draining scopes =>
      obtain ⟨-, ⟨⟩⟩ := Option.ite_none_right_eq_some.mp h
      rfl
  | queued verb =>
      simp only [pollStage?] at h
      split at h
      · cases h
        rfl
      · obtain ⟨-, ⟨⟩⟩ := Option.ite_none_right_eq_some.mp h
        rfl
  | preparing verb rest =>
      cases rest with
      | nil =>
          cases h
          rfl
      | cons next rest =>
          cases h
          rfl
  | replying reply purpose =>
      obtain ⟨-, ⟨⟩⟩ := Option.ite_none_right_eq_some.mp h
      exact initializers_receive db t _ purpose
  | finished r => cases h

/-! ### One step of a waiting task -/

/-- **What a task does that waits for the initializers** from `next` up to `limit`: the database after
its step, and what happened. -/
inductive Attends (db : Database) (t : TaskId) (goal : Option (Work × Option ScopeId))
    (next limit : Nat) : Database × List Event → Prop
  /-- It begins the next one. -/
  | begins {i : Initializer} : next < limit → db.initializers[next]? = some i → i.phase = .idle →
      Attends db t goal next limit (db.setPhase next .running, [.began next])
  /-- It sees the next one end. -/
  | finishes {i : Initializer} : next < limit → db.initializers[next]? = some i →
      i.phase = .running →
        Attends db t goal next limit (db.setPhase next .finished, [.initialized next])
  /-- The next one has succeeded. -/
  | proceeds : next < limit → db.EndedWith next (.ok ()) →
      Attends db t goal next limit (db.setStage t (.initializing goal (next + 1) limit), [])
  /-- The next one has failed. -/
  | fails {e : Fault} : next < limit → db.EndedWith next (.error e) →
      Attends db t goal next limit (db.complete t (.error (.initialization e.message)))
  /-- It has all of them behind it. -/
  | passes : limit ≤ next ∨ db.initializers[next]? = none →
      Attends db t goal next limit (db.pass t goal)

/-- **Every step of a waiting task is one of these.** -/
theorem attends_of_poll? {r : Database × List Event} (hx : db.tasks[t]? = some x)
    (hs : x.stage = .initializing goal next limit) (h : db.poll? t = some r) :
    db.Attends t goal next limit r := by
  rw [poll?, hx, Option.bind_some, pollStage?, hs] at h
  dsimp only at h
  split at h
  case isTrue hle =>
    cases h
    exact .passes (.inl hle)
  case isFalse hlt =>
    have hlt := Nat.lt_of_not_le hlt
    split at h
    case h_1 hnone =>
      cases h
      exact .passes (.inr hnone)
    case h_2 i hi =>
      unfold awaitInitializer? at h
      cases hp : i.phase with
      | idle =>
          obtain rfl : _ = r := by simpa [hp] using h
          exact .begins hlt hi hp
      | running =>
          obtain ⟨-, rfl⟩ : _ ∧ _ = r := by simpa [hp] using h
          exact .finishes hlt hi hp
      | finished =>
          cases hr : i.result with
          | ok =>
              obtain rfl : _ = r := by simpa [hp, hr] using h
              exact .proceeds hlt ⟨i, hi, hp, hr⟩
          | error e =>
              obtain rfl : _ = r := by simpa [hp, hr] using h
              exact .fails hlt ⟨i, hi, hp, hr⟩

/-- A waiting task of which a step tells nothing has seen the next initializer succeed. -/
theorem Attends.succeeded {r : Database × List Event} (h : db.Attends t goal next limit r)
    (hr : r.2 = []) : db.EndedWith next (.ok ()) := by
  cases h with
  | begins => cases hr
  | finishes => cases hr
  | proceeds _ hs => exact hs
  | fails => cases hr
  | passes =>
      cases goal with
      | none => cases hr
      | some goal =>
          rw [pass, approach] at hr
          split at hr <;> cases hr

/-! ### What a move does to the initializers -/

/-- **What one move does to the initializers**: the list of them after it, and what happened. -/
inductive Turns (db : Database) : List Initializer → List Event → Prop
  /-- Nothing. -/
  | still {es : List Event} : (∀ e ∈ es, e.began? = none ∧ e.initialized? = none) →
      Turns db db.initializers es
  /-- One more is registered. -/
  | registers {hold : Option String} {result : Except Fault Unit} :
      Turns db (db.initializers ++ [⟨hold, result, .idle⟩]) []
  /-- A task that waits for it begins one. -/
  | begins {t : TaskId} {x : Task} {goal : Option (Work × Option ScopeId)} {next limit : Nat}
      {i : Initializer} :
      db.tasks[t]? = some x → x.stage = .initializing goal next limit →
        db.initializers[next]? = some i → i.phase = .idle →
          Turns db (db.setPhase next .running).initializers [.began next]
  /-- One ends. -/
  | finishes {next : Nat} {i : Initializer} :
      db.initializers[next]? = some i → i.phase = .running →
        Turns db (db.setPhase next .finished).initializers [.initialized next]

/-- The initializers can stay as they are, with nothing told of them. -/
theorem turns_nil (db : Database) : db.Turns db.initializers [] :=
  .still fun _ he => absurd he List.not_mem_nil

/-- A task that does not wait for initializers tells nothing of them. -/
theorem Stride.silent (h : db.Stride t x c x' es) (hs : x.stage.awaits = false) :
    ∀ e ∈ es, e.began? = none ∧ e.initialized? = none := by
  cases h with
  | closes =>
      refine List.forall_mem_append.mpr ⟨?_, ?_⟩
      · exact List.forall_mem_map.mpr fun _ _ => ⟨rfl, rfl⟩
      · exact List.forall_mem_map.mpr fun _ _ => ⟨rfl, rfl⟩
  | drives => cases hs
  | _ => simp [Event.began?, Event.initialized?]

/-- A task that has its initializers behind it tells nothing of them. -/
theorem pass_silent (db : Database) (t : TaskId) (goal : Option (Work × Option ScopeId)) :
    ∀ e ∈ (db.pass t goal).2, e.began? = none ∧ e.initialized? = none := by
  cases goal with
  | none => exact List.forall_mem_singleton.mpr ⟨rfl, rfl⟩
  | some goal =>
      rw [pass]
      unfold approach
      split
      · simp [complete, Event.began?, Event.initialized?]
      · simp [Event.began?, Event.initialized?]

/-- **Every move does one of these to the initializers.** -/
theorem exists_turns (db : Database) (m : Move) :
    db.Turns (db.move m).1.initializers (db.move m).2 := by
  cases m with
  | act action =>
      cases action with
      | addInitializer hold result => exact .registers
      | issue operation replies => exact db.turns_nil
      | start s =>
          simp only [move, act]
          cases db.scheduler.start s with
          | error e => exact db.turns_nil
          | ok r => exact .still (by simp [withScheduler, Event.began?, Event.initialized?])
      | _ => exact .still (by simp [move, act, withScheduler, Event.began?, Event.initialized?])
  | poll t =>
      rw [move]
      cases h : db.poll? t with
      | none => exact db.turns_nil
      | some r =>
          obtain ⟨x, hx, c, x', hst, -, -⟩ := exists_stride h
          rw [Option.getD_some]
          cases hs : x.stage with
          | initializing goal next limit =>
              cases attends_of_poll? hx hs h with
              | begins _ hi hp => exact .begins hx hs hi hp
              | finishes _ hi hp => exact .finishes hi hp
              | proceeds => exact db.turns_nil
              | fails => exact .still (List.forall_mem_singleton.mpr ⟨rfl, rfl⟩)
              | passes =>
                  rw [initializers_pass]
                  exact .still (db.pass_silent t goal)
          | _ =>
              have hawaits : x.stage.awaits = false := by rw [hs]; rfl
              rw [initializers_poll? hx hawaits h]
              exact .still (hst.silent hawaits)

namespace Turns

variable {is : List Initializer}

/-- Changing the phase of one initializer. -/
theorem getElem?_setPhase (db : Database) (next : Nat) (phase : InitializerPhase) (i : Nat) :
    (db.setPhase next phase).initializers[i]? =
      (db.initializers[i]?).map fun x => if next = i then { x with phase } else x := by
  rw [setPhase, List.getElem?_modify]
  cases db.initializers[i]? with
  | none => rfl
  | some x => split <;> rfl

/-- **Initializers stay**, and what has ended stays as it is. -/
theorem kept (h : db.Turns is es) {y : Initializer} (hy : db.initializers[i]? = some y) :
    ∃ y', is[i]? = some y' ∧ (y.phase = .finished → y' = y) := by
  cases h with
  | still => exact ⟨y, hy, fun _ => rfl⟩
  | registers =>
      refine ⟨y, ?_, fun _ => rfl⟩
      rw [List.getElem?_append_left (List.getElem?_eq_some_iff.mp hy).1, hy]
  | @begins _ _ _ next _ z _ _ hz hp =>
      refine ⟨_, by rw [getElem?_setPhase, hy, Option.map_some], fun hend => ?_⟩
      split
      case isTrue heq =>
        subst heq
        obtain rfl : y = z := Option.some.inj (hy.symm.trans hz)
        simp [hp] at hend
      case isFalse => rfl
  | @finishes next z hz hp =>
      refine ⟨_, by rw [getElem?_setPhase, hy, Option.map_some], fun hend => ?_⟩
      split
      case isTrue heq =>
        subst heq
        obtain rfl : y = z := Option.some.inj (hy.symm.trans hz)
        simp [hp] at hend
      case isFalse => rfl

end Turns

/-- **The result of an initializer is for good.** -/
theorem EndedWith.move {r : Except Fault Unit} (h : db.EndedWith i r) (m : Move) :
    (db.move m).1.EndedWith i r := by
  obtain ⟨x, hx, hp, hr⟩ := h
  obtain ⟨x', hx', hsame⟩ := (db.exists_turns m).kept hx
  obtain rfl := hsame hp
  exact ⟨x', hx', hp, hr⟩

/-- An initializer has one result. -/
theorem EndedWith.unique {r r' : Except Fault Unit} (h : db.EndedWith i r) (h' : db.EndedWith i r') :
    r = r' := by
  obtain ⟨x, hx, -, hr⟩ := h
  obtain ⟨y, hy, -, hr'⟩ := h'
  obtain rfl : x = y := Option.some.inj (hx.symm.trans hy)
  exact hr.symm.trans hr'

/-- Initializers are only added. -/
theorem length_initializers_move (db : Database) (m : Move) :
    db.initializers.length ≤ (db.move m).1.initializers.length := by
  cases hlen : db.initializers.length with
  | zero => exact Nat.zero_le _
  | succ k =>
      have hk : k < db.initializers.length := by rw [hlen]; exact Nat.lt_succ_self k
      obtain ⟨y', hy', -⟩ := (db.exists_turns m).kept (List.getElem?_eq_getElem hk)
      exact (List.getElem?_eq_some_iff.mp hy').1

/-- **A task that waits for initializers after a move** waited as it does, or has just begun to wait
for all that there are, or has seen the one before succeed. -/
theorem awaits_move (hx' : (db.move m).1.tasks[t]? = some x')
    (hs' : x'.stage = .initializing goal next limit) :
    db.tasks[t]? = some x' ∨ next = 0 ∧ limit = db.initializers.length ∨
      ∃ x prev, db.tasks[t]? = some x ∧ x.stage = .initializing goal prev limit ∧
        next = prev + 1 ∧ db.EndedWith prev (.ok ()) := by
  obtain ⟨c, hh⟩ := db.exists_happens m
  generalize (db.move m).1 = db', (db.move m).2 = es at hh hx'
  cases hh with
  | issued ht _ =>
      rw [ht, List.getElem?_append] at hx'
      split at hx'
      · exact .inl hx'
      · obtain ⟨-, rfl⟩ : _ ∧ _ = x' := by simpa [List.getElem?_singleton] using hx'
        cases hs'
  | served _ _ ht _ => exact .inl (ht ▸ hx')
  | stuck => exact .inl hx'
  | @strode u y y' c es db' hpoll hy hst ht _ =>
      rw [ht, List.getElem?_set] at hx'
      split at hx'
      case isFalse => exact .inl hx'
      case isTrue hu =>
        subst hu
        obtain rfl : y' = x' := by simpa using (Option.ite_none_right_eq_some.mp hx').2
        cases hst with
        | gates =>
            cases hs'
            exact .inr (.inl ⟨rfl, rfl⟩)
        | drives => exact .inl hy
        | proceeds =>
            cases hs'
            have hnext := (attends_of_poll? hy rfl hpoll).succeeded rfl
            exact .inr (.inr ⟨_, _, hy, rfl, rfl, hnext⟩)
        | works _ hw =>
            obtain rfl := hs'
            cases hw
        | _ => cases hs'

end Database

/-! ### What every history preserves -/

/-- The phase of an initializer when the first `begun` have begun and the first `ended` have ended. -/
def phaseAt (begun ended i : Nat) : InitializerPhase :=
  if i < ended then .finished else if i < begun then .running else .idle

section Phases

variable {b f i : Nat}

/-- An initializer is over exactly if it is among the first that ended. -/
theorem phaseAt_eq_finished_iff : phaseAt b f i = .finished ↔ i < f := by
  unfold phaseAt
  split
  · simp [*]
  · split <;> simp [*]

/-- An initializer is under way exactly if it has begun and not ended. -/
theorem phaseAt_eq_running_iff : phaseAt b f i = .running ↔ f ≤ i ∧ i < b := by
  unfold phaseAt
  split
  · simp; omega
  · split <;> simp <;> omega

/-- An initializer is idle exactly if it has neither begun nor ended. -/
theorem phaseAt_eq_idle_iff : phaseAt b f i = .idle ↔ f ≤ i ∧ b ≤ i := by
  unfold phaseAt
  split
  · simp; omega
  · split <;> simp <;> omega

/-- The phase of an initializer depends on nothing but whether it has begun and whether it has ended.
-/
theorem phaseAt_congr {b' f' : Nat} (hf : i < f ↔ i < f') (hb : i < b ↔ i < b') :
    phaseAt b f i = phaseAt b' f' i := by
  simp only [phaseAt, hf, hb]

end Phases

namespace History

variable {h : History} {m : Move} {b f i : Nat} {interval : Nat} {timed : Bool} {moves : List Move}

/-- The initializers that began, in order. -/
def begun (h : History) : List Nat := h.events.filterMap Event.began?

/-- The initializers that ended, in order. -/
def initialized (h : History) : List Nat := h.events.filterMap Event.initialized?

/-- **The initializers are paced**: the first `b` of them have begun and the first `f` have ended. -/
structure Paced (h : History) (b f : Nat) : Prop where
  /-- They began in order. -/
  begun : h.begun = List.range b
  /-- They ended in order. -/
  initialized : h.initialized = List.range f
  /-- Those that ended had begun. -/
  ahead : f ≤ b
  /-- At most one is under way. -/
  alone : b ≤ f + 1
  /-- Those that began are registered. -/
  known : b ≤ h.db.initializers.length
  /-- Their phases say so. -/
  phase : ∀ (i : Nat) (y : Initializer), h.db.initializers[i]? = some y → y.phase = phaseAt b f i
  /-- All before the last one that began have succeeded. -/
  passed : ∀ i, i + 1 < b → h.db.EndedWith i (.ok ())
  /-- A task that waits has seen those before the next one succeed. -/
  attends : ∀ (t : TaskId) (x : Task) goal (next limit : Nat), h.db.tasks[t]? = some x →
    x.stage = .initializing goal next limit →
      limit ≤ h.db.initializers.length ∧ ∀ j < next, h.db.EndedWith j (.ok ())

/-- The initializers that began grow by those of each move. -/
theorem begun_move (h : History) (m : Move) :
    (h.move m).begun = h.begun ++ (h.db.move m).2.filterMap Event.began? :=
  List.filterMap_append

/-- The initializers that ended grow by those of each move. -/
theorem initialized_move (h : History) (m : Move) :
    (h.move m).initialized = h.initialized ++ (h.db.move m).2.filterMap Event.initialized? :=
  List.filterMap_append

/-- What is over is among the first `f`. -/
theorem Paced.lt_of_ended {r : Except Fault Unit} (hp : h.Paced b f) (hr : h.db.EndedWith i r) :
    i < f := by
  obtain ⟨y, hy, hend, -⟩ := hr
  exact phaseAt_eq_finished_iff.mp ((hp.phase i y hy).symm.trans hend)

/-- **Behind an initializer that failed none begins.** -/
theorem Paced.le_of_failed {e : Fault} (hp : h.Paced b f) (he : h.db.EndedWith i (.error e)) :
    b ≤ i + 1 := by
  refine Nat.le_of_not_lt fun hlt => ?_
  cases (hp.passed i hlt).unique he

/-- All before an initializer that failed have succeeded, so only one can fail. -/
theorem Paced.failed_unique {j : Nat} {e e' : Fault} (hp : h.Paced b f)
    (hi : h.db.EndedWith i (.error e)) (hj : h.db.EndedWith j (.error e')) : i = j ∧ e = e' := by
  have hib := hp.le_of_failed hi
  have hjb := hp.le_of_failed hj
  have hif := hp.lt_of_ended hi
  have hjf := hp.lt_of_ended hj
  have hle := hp.ahead
  obtain rfl : i = j := by omega
  exact ⟨rfl, Except.error.inj (hi.unique hj)⟩

/-- What a task that waits has seen stays true. -/
theorem Paced.attends_move (hp : h.Paced b f) (m : Move) (t : TaskId) (x' : Task)
    (goal : Option (Work × Option ScopeId)) (next limit : Nat)
    (hx' : (h.move m).db.tasks[t]? = some x') (hs' : x'.stage = .initializing goal next limit) :
    limit ≤ (h.move m).db.initializers.length ∧
      ∀ j < next, (h.move m).db.EndedWith j (.ok ()) := by
  have hlen : h.db.initializers.length ≤ (h.move m).db.initializers.length :=
    h.db.length_initializers_move m
  rcases Database.awaits_move hx' hs' with hx | ⟨rfl, rfl⟩ | ⟨x, prev, hx, hs, rfl, hprev⟩
  · obtain ⟨hlimit, hseen⟩ := hp.attends t x' goal next limit hx hs'
    exact ⟨hlimit.trans hlen, fun j hj => (hseen j hj).move m⟩
  · exact ⟨hlen, nofun⟩
  · obtain ⟨hlimit, hseen⟩ := hp.attends t x goal prev limit hx hs
    refine ⟨hlimit.trans hlen, fun j hj => ?_⟩
    rcases Nat.lt_succ_iff_lt_or_eq.mp hj with hj | rfl
    · exact (hseen j hj).move m
    · exact hprev.move m

/-- **Every move keeps the pace.** -/
theorem Paced.move (hp : h.Paced b f) (m : Move) : ∃ b' f', (h.move m).Paced b' f' := by
  have hahead := hp.ahead
  have halone := hp.alone
  have hattends := hp.attends_move m
  have hlen : h.db.initializers.length ≤ (h.move m).db.initializers.length :=
    h.db.length_initializers_move m
  have hpassed : ∀ i, i + 1 < b → (h.move m).db.EndedWith i (.ok ()) :=
    fun i hi => (hp.passed i hi).move m
  have hbegun := h.begun_move m
  have hended := h.initialized_move m
  rw [hp.begun] at hbegun
  rw [hp.initialized] at hended
  have hturns := h.db.exists_turns m
  generalize hinit : (h.db.move m).1.initializers = is at hturns
  generalize (h.db.move m).2 = es at hturns hbegun hended
  have hinit : (h.move m).db.initializers = is := hinit
  cases hturns with
  | still hnone =>
      rw [List.filterMap_eq_nil_iff.mpr fun e he => (hnone e he).1, List.append_nil] at hbegun
      rw [List.filterMap_eq_nil_iff.mpr fun e he => (hnone e he).2, List.append_nil] at hended
      refine ⟨b, f, hbegun, hended, hahead, halone, hp.known.trans hlen, ?_, hpassed, hattends⟩
      rw [hinit]
      exact hp.phase
  | registers =>
      rw [List.filterMap_nil, List.append_nil] at hbegun hended
      refine ⟨b, f, hbegun, hended, hahead, halone, hp.known.trans hlen, fun i y hy => ?_, hpassed,
        hattends⟩
      rw [hinit, List.getElem?_append] at hy
      split at hy
      · exact hp.phase i y hy
      case isFalse hi =>
        obtain ⟨-, rfl⟩ : _ ∧ _ = y := by simpa [List.getElem?_singleton] using hy
        have hknown := hp.known
        exact (phaseAt_eq_idle_iff.mpr (by omega)).symm
  | @begins t x goal next limit y hx hs hy hidle =>
      obtain ⟨-, hseen⟩ := hp.attends t x goal next limit hx hs
      obtain ⟨-, hbn⟩ := phaseAt_eq_idle_iff.mp ((hp.phase next y hy).symm.trans hidle)
      -- all before the next one have ended, so it is the first that has not begun
      have hnf : next ≤ f := by
        cases next with
        | zero => exact Nat.zero_le f
        | succ k => exact hp.lt_of_ended (hseen k (Nat.lt_succ_self k))
      obtain ⟨rfl, rfl⟩ : b = next ∧ b = f := by omega
      have hlt := (List.getElem?_eq_some_iff.mp hy).1
      rw [show [Event.began b].filterMap Event.began? = [b] from rfl, ← List.range_succ] at hbegun
      rw [show [Event.began b].filterMap Event.initialized? = [] from rfl, List.append_nil] at hended
      refine ⟨b + 1, b, hbegun, hended, by omega, by omega, by omega, fun i z hz => ?_,
        fun i hi => (hseen i (by omega)).move m, hattends⟩
      rw [hinit, Database.Turns.getElem?_setPhase] at hz
      obtain ⟨w, hw, rfl⟩ := Option.map_eq_some_iff.mp hz
      split
      case isTrue heq => exact (phaseAt_eq_running_iff.mpr (by omega)).symm
      case isFalse hne =>
        rw [hp.phase i w hw]
        exact phaseAt_congr Iff.rfl (by omega)
  | @finishes next y hy hrunning =>
      obtain ⟨hfn, hnb⟩ := phaseAt_eq_running_iff.mp ((hp.phase next y hy).symm.trans hrunning)
      obtain ⟨rfl, rfl⟩ : f = next ∧ b = f + 1 := by omega
      rw [show [Event.initialized f].filterMap Event.began? = [] from rfl, List.append_nil] at hbegun
      rw [show [Event.initialized f].filterMap Event.initialized? = [f] from rfl,
        ← List.range_succ] at hended
      refine ⟨f + 1, f + 1, hbegun, hended, by omega, by omega, hp.known.trans hlen,
        fun i z hz => ?_, hpassed, hattends⟩
      rw [hinit, Database.Turns.getElem?_setPhase] at hz
      obtain ⟨w, hw, rfl⟩ := Option.map_eq_some_iff.mp hz
      split
      case isTrue heq => exact (phaseAt_eq_finished_iff.mpr (by omega)).symm
      case isFalse hne =>
        rw [hp.phase i w hw]
        exact phaseAt_congr (by omega) Iff.rfl

/-- **The initializers of every history are paced.** -/
theorem exists_paced (interval : Nat) (timed : Bool) (moves : List Move) :
    ∃ b f, (history interval timed moves).Paced b f := by
  refine play_induction (p := fun h => ∃ b f, h.Paced b f) ⟨0, 0, ?_⟩
    (fun h m ⟨b, f, hp⟩ => hp.move m) moves
  have hnone : (opening interval timed).db.initializers = [] := rfl
  refine ⟨?_, ?_, Nat.le_refl 0, Nat.zero_le 1, Nat.zero_le _, ?_, nofun,
    fun t x goal next limit hx => ?_⟩
  · rw [begun, events_opening]
    rfl
  · rw [initialized, events_opening]
    rfl
  · rw [hnone]
    exact nofun
  · rw [tasks_opening] at hx
    cases hx

/-- **An initializer begins only when all before it have succeeded.** -/
theorem Paced.succeeded_of_began (hp : h.Paced b f) (hi : .began i ∈ (h.db.move m).2) :
    ∀ j < i, h.db.EndedWith j (.ok ()) := by
  have hturns := h.db.exists_turns m
  generalize (h.db.move m).1.initializers = is at hturns
  generalize (h.db.move m).2 = es at hturns hi
  cases hturns with
  | still hnone => exact nomatch (hnone _ hi).1
  | registers => nomatch hi
  | @begins t x goal next limit y hx hs =>
      obtain rfl : i = next := by simpa using hi
      exact (hp.attends t x goal i limit hx hs).2
  | finishes => simp at hi

end History

end ScopedSql
