import ScopedSql.Proofs.Database.Initializers

/-!
# Initializers guard everything

A gated operation waits for the initializers that there are when it begins to wait. `Stands` says
where it can stand from then on: it waits, it has failed with the initializer that failed, or it has
seen all of them succeed and came to its scope. Every move keeps it there (`Stands.move`), so it
touches neither a scope nor the engine before all of them have succeeded.

It is not delayed either. Once it is decided how its initializers end, each of its own turns takes it
on to the next one (`turn`), whatever all others do in between; after more turns than there were
initializers it has what it waited for (`Stands.exists_not_barred`).
-/

namespace ScopedSql

/-- Whether a task has the initializers that it waits for before it. -/
def Stage.barred : Stage → Bool
  | .fresh => true
  | .initializing _ _ _ => true
  | _ => false

/-- Whether a move is a turn of a task. -/
def Move.polls (t : TaskId) : Move → Bool
  | .poll u => u == t
  | .act _ => false

/-- **The turns of a task** among some moves. -/
def turns (t : TaskId) (moves : List Move) : Nat := moves.countP (Move.polls t)

/-- The first move of a run adds a turn if it is one of the task. -/
theorem turns_cons (t : TaskId) (m : Move) (moves : List Move) :
    turns t (m :: moves) = turns t moves + if m.polls t then 1 else 0 :=
  List.countP_cons

/-- A turn of a task is a move that polls it. -/
theorem Move.eq_poll {t : TaskId} {m : Move} (h : m.polls t) : m = .poll t := by
  cases m with
  | act => cases h
  | poll u => rw [beq_iff_eq.mp h]

namespace Database

variable {db db' : Database} {t : TaskId} {x x' : Task} {c : Scheduler.Call} {es : List Event}
  {m : Move} {goal : Option (Work × Option ScopeId)} {next limit n : Nat} {s : ScopeId}

/-- **A task begins to wait** in its first step, for all the initializers that there are. -/
theorem Happens.gated (h : db.Happens m c db' es) (hg : .gated t n ∈ es) :
    n = db.initializers.length ∧ ∃ o replies goal, db.tasks[t]? = some ⟨o, replies, .fresh⟩ ∧
      db'.tasks[t]? = some ⟨o, replies, .initializing goal 0 n⟩ ∧ es = [.gated t n] := by
  cases h with
  | issued => cases hg
  | served => simp at hg
  | stuck => cases hg
  | @strode i x x' c es db' _ hx hst ht _ =>
      have hlt := (List.getElem?_eq_some_iff.mp hx).1
      cases hst with
      | @gates o replies goal =>
          obtain ⟨rfl, rfl⟩ : t = i ∧ n = _ := by simpa using hg
          exact ⟨rfl, o, replies, goal, hx, by rw [ht, List.getElem?_set_self hlt], rfl⟩
      | drives hd => rcases hd with rfl | rfl <;> simp at hg
      | _ => simp at hg

/-- A task that comes to a scope has its initializers behind it. -/
theorem Happens.not_barred (h : db.Happens m c db' es) (he : .approached t s ∈ es) :
    ∃ x', db'.tasks[t]? = some x' ∧ x'.stage.barred = false := by
  obtain ⟨-, x, work, -, -, -, ⟨-, hx'⟩ | ⟨-, hx'⟩⟩ := h.approached he
  · exact ⟨_, hx', rfl⟩
  · exact ⟨_, hx', rfl⟩

/-- No step leads back to the beginning. -/
theorem Stride.not_fresh (h : db.Stride t x c x' es) : x'.stage ≠ .fresh := by
  intro hf
  cases h with
  | works _ hs =>
      cases hf
      cases hs
  | _ => cases hf

/-- A task that has its initializers behind it does not come back to them. -/
theorem Stride.not_barred (h : db.Stride t x c x' es) (hs : x.stage.barred = false) :
    x'.stage.barred = false := by
  cases h with
  | gates => cases hs
  | drives => cases hs
  | proceeds => cases hs
  | @works _ _ _ stage _ hs => cases stage <;> first | rfl | cases hs
  | _ => rfl

/-- A task that waits for initializers asks the scheduler for nothing. -/
theorem Stride.eq_nothing (h : db.Stride t x c x' es) (hs : x.stage.awaits) : c = .nothing := by
  cases h with
  | closes => cases hs
  | drains => cases hs
  | _ => rfl

/-! ### One turn -/

/-- **A task that waits for initializers, or is over,** does nothing to the scheduler. -/
theorem scheduler_poll (hx : db.tasks[t]? = some x)
    (hs : x.stage.awaits ∨ ∃ r, x.stage = .finished r) :
    (db.move (.poll t)).1.scheduler = db.scheduler := by
  rw [move]
  cases hr : db.poll? t with
  | none => rfl
  | some r =>
      obtain ⟨y, hy, c, y', hst, -, hsched⟩ := exists_stride hr
      obtain rfl : x = y := Option.some.inj (hx.symm.trans hy)
      obtain rfl : c = .nothing := by
        rcases hs with hs | ⟨_, hs⟩
        · exact hst.eq_nothing hs
        · exact absurd hs hst.unfinished
      exact hsched

/-- A task that comes to a stage stands in it. -/
theorem getElem?_setStage (hx : db.tasks[t]? = some x) (stage : Stage) :
    (db.setStage t stage).tasks[t]? = some { x with stage } := by
  rw [setStage, List.getElem?_modify_eq, hx]
  rfl

/-- **A task that has seen its initializers succeed** has them behind it, and comes to its scope if it
is after one. -/
theorem exists_stage_pass (hx : db.tasks[t]? = some x) (goal : Option (Work × Option ScopeId)) :
    ∃ stage, (db.pass t goal).1.tasks[t]? = some { x with stage } ∧ stage.barred = false ∧
      ((∃ s, .approached t s ∈ (db.pass t goal).2) ∨
        goal = none ∧ stage = .finished (.ok .done)) := by
  cases goal with
  | none => exact ⟨_, getElem?_setStage hx _, rfl, .inr ⟨rfl, rfl⟩⟩
  | some goal =>
      rw [pass]
      unfold approach
      split
      · exact ⟨_, getElem?_setStage hx _, rfl, .inl ⟨_, List.mem_cons_self⟩⟩
      · exact ⟨_, getElem?_setStage hx _, rfl, .inl ⟨_, List.mem_cons_self⟩⟩

/-- **A waiting task can take no step** only while the next initializer is under way and held back. -/
theorem exists_held (hx : db.tasks[t]? = some x) (hs : x.stage = .initializing goal next limit)
    (hn : db.poll? t = none) : next < limit ∧ ∃ y, db.initializers[next]? = some y ∧
      y.phase = .running ∧ ¬ db.isOpen y.hold := by
  rw [poll?, hx, Option.bind_some, pollStage?, hs] at hn
  dsimp only at hn
  split at hn
  case isTrue => cases hn
  case isFalse hlt =>
    refine ⟨Nat.lt_of_not_le hlt, ?_⟩
    split at hn
    case h_1 => cases hn
    case h_2 y hy =>
      refine ⟨y, hy, ?_⟩
      unfold awaitInitializer? at hn
      split at hn
      case h_1 => cases hn
      case h_2 hp =>
        split at hn
        case isTrue => cases hn
        case isFalse hopen => exact ⟨hp, hopen⟩
      case h_3 => split at hn <;> cases hn

/-- **A waiting task takes a step** when it is decided how the next initializer ends: it turns to the
one after it, or its waiting is over. -/
theorem turn (hx : db.tasks[t]? = some x) (hs : x.stage = .initializing goal next limit)
    (hd : next < limit → ∃ r, db.EndedWith next r) :
    ∃ x', (db.move (.poll t)).1.tasks[t]? = some x' ∧
      (next < limit ∧ x'.stage = .initializing goal (next + 1) limit ∨ x'.stage.barred = false) := by
  obtain ⟨r, hr⟩ : ∃ r, db.poll? t = some r := by
    refine Option.ne_none_iff_exists'.mp fun hn => ?_
    obtain ⟨hlt, y, hy, hp, -⟩ := exists_held hx hs hn
    obtain ⟨_, he⟩ := hd hlt
    cases hp.symm.trans (he.phase_eq hy)
  rw [move, hr, Option.getD_some]
  cases attends_of_poll? hx hs hr with
  | begins hlt hi hp =>
      obtain ⟨_, he⟩ := hd hlt
      cases hp.symm.trans (he.phase_eq hi)
  | finishes hlt hi hp =>
      obtain ⟨_, he⟩ := hd hlt
      cases hp.symm.trans (he.phase_eq hi)
  | proceeds hlt => exact ⟨_, getElem?_setStage hx _, .inl ⟨hlt, rfl⟩⟩
  | fails => exact ⟨_, getElem?_setStage hx _, .inr rfl⟩
  | passes =>
      obtain ⟨stage, hx', hb, -⟩ := db.exists_stage_pass hx goal
      exact ⟨_, hx', .inr hb⟩

end Database

namespace History

variable {h : History} {m : Move} {t : TaskId} {x : Task} {b f i n : Nat} {e : Fault} {s : ScopeId}
  {interval : Nat} {timed : Bool} {moves : List Move}

/-! ### Where a gated task stands -/

/-- The first `n` initializers have succeeded. -/
def Ready (h : History) (n : Nat) : Prop := ∀ i < n, h.db.EndedWith i (.ok ())

/-- A task came to a scope. -/
def Approached (h : History) (t : TaskId) : Prop := ∃ s, .approached t s ∈ h.events

/-- **A task has its initializers behind it**: it came to its scope, or it was after none and is
done. -/
def Reached (h : History) (t : TaskId) : Prop :=
  ∃ x, h.db.tasks[t]? = some x ∧ x.stage.barred = false ∧
    (h.Approached t ∨ x.operation.goal? = none ∧ x.stage = .finished (.ok .done))

/-- **A task failed with an initializer**, without coming to a scope and without a call to the
engine. -/
def Refused (h : History) (t : TaskId) (e : Fault) : Prop :=
  h.result? t = some (.error (.initialization e.message)) ∧ ¬ h.Approached t ∧ h.callsOf t = []

/-- **Where a task stands** that began to wait for `n` initializers. -/
inductive Stands (h : History) (t : TaskId) (n : Nat) : Prop
  /-- It waits. -/
  | waits {x : Task} {goal : Option (Work × Option ScopeId)} {next : Nat} :
      h.db.tasks[t]? = some x → x.stage = .initializing goal next n → ¬ h.Approached t →
        Stands h t n
  /-- One of them has failed, and so has the task. -/
  | refused {i : Nat} {e : Fault} :
      i < n → h.db.EndedWith i (.error e) → h.Refused t e → Stands h t n
  /-- All of them have succeeded, and the task has them behind it. -/
  | passed : h.Ready n → h.Reached t → Stands h t n

/-- Initializers that have succeeded have done so for good. -/
theorem Ready.move (hr : h.Ready n) (m : Move) : (h.move m).Ready n :=
  fun i hi => (hr i hi).move m

/-- Initializers that have succeeded have done so for the rest of every run. -/
theorem Ready.play (hr : h.Ready n) (moves : List Move) : (h.play moves).Ready n :=
  play_induction (p := fun h => h.Ready n) hr (fun _ m ih => ih.move m) moves

/-- A task has come to a scope after a move if it had before, or comes to one in the move. -/
theorem approached_move (h : History) (m : Move) (t : TaskId) :
    (h.move m).Approached t ↔ h.Approached t ∨ ∃ s, .approached t s ∈ (h.db.move m).2 := by
  simp only [Approached, History.move, List.mem_append, exists_or]

/-- A task has a result exactly if it is over with it. -/
theorem result?_eq_some_iff {r : Except Fault Outcome} :
    h.result? t = some r ↔ ∃ x, h.db.tasks[t]? = some x ∧ x.stage = .finished r := by
  rw [result?, Option.bind_eq_some_iff]
  refine exists_congr fun x => and_congr_right fun _ => ?_
  unfold Task.result?
  split
  case h_1 heq => rw [heq, Option.some.injEq, Stage.finished.injEq]
  case h_2 hne => exact ⟨nofun, fun heq => absurd heq (hne r)⟩

/-- What is behind a task stays behind it. -/
theorem Reached.move (hr : h.Reached t) (m : Move) : (h.move m).Reached t := by
  obtain ⟨x, hx, hb, hcase⟩ := hr
  obtain ⟨c, hh⟩ := h.db.exists_happens m
  obtain ⟨x', hx', hop, ⟨rfl, -⟩ | ⟨-, hst⟩⟩ := hh.exists_task hx
  · exact ⟨x', hx', hb, hcase.imp_left fun ha => (h.approached_move m t).mpr (.inl ha)⟩
  · refine ⟨x', hx', hst.not_barred hb, .inl ((h.approached_move m t).mpr (.inl ?_))⟩
    exact hcase.resolve_right fun hend => hst.unfinished hend.2

/-- A task that was refused stays so. -/
theorem Refused.move (hr : h.Refused t e) (m : Move) : (h.move m).Refused t e := by
  obtain ⟨hres, hno, hcalls⟩ := hr
  obtain ⟨x, hx, hend⟩ := result?_eq_some_iff.mp hres
  obtain ⟨c, hh⟩ := h.db.exists_happens m
  obtain ⟨x', hx', -, ⟨rfl, hnone⟩ | ⟨-, hst⟩⟩ := hh.exists_task hx
  · refine ⟨result?_eq_some_iff.mpr ⟨x', hx', hend⟩, fun ha => ?_, ?_⟩
    · rcases (h.approached_move m t).mp ha with ha | ⟨s, ha⟩
      · exact hno ha
      · obtain ⟨-, y, work, hy, hk, -⟩ := hh.approached ha
        obtain rfl : x' = y := Option.some.inj (hx.symm.trans hy)
        rw [hend] at hk
        cases hk
    · rw [callsOf_move, hcalls, hnone]
      rfl
  · exact absurd hend hst.unfinished

/-- **A turn of a task that waits** leaves it where such a task can stand. -/
theorem Paced.stands_poll {goal : Option (Work × Option ScopeId)} {next : Nat} (hp : h.Paced b f)
    (hs : h.Sound) (hx : h.db.tasks[t]? = some x) (hst : x.stage = .initializing goal next n)
    (hno : ¬ h.Approached t) : (h.move (.poll t)).Stands t n := by
  have happroached := h.approached_move (.poll t) t
  have hended : ∀ {r : Except Fault Unit} {i : Nat}, h.db.EndedWith i r →
      (h.move (.poll t)).db.EndedWith i r := fun hi => hi.move (.poll t)
  obtain ⟨hlimit, hseen⟩ := hp.attends t x goal next n hx hst
  have hgoal : x.operation.goal? = goal := by
    have hfits := hs.fits t x hx
    rwa [hst] at hfits
  have hcalls : (h.move (.poll t)).callsOf t = ScopedSql.callsOf t (h.db.move (.poll t)).2 := by
    rw [callsOf_move, hs.callsOf_eq_nil hx (by rw [hst]; rfl), List.nil_append]
  have hmove : h.db.move (.poll t) = (h.db.poll? t).getD (h.db, []) := rfl
  have hdb : (h.move (.poll t)).db = ((h.db.poll? t).getD (h.db, [])).1 := rfl
  rw [hmove] at happroached hcalls
  cases hr : h.db.poll? t with
  | none =>
      rw [hr, Option.getD_none] at happroached hdb
      refine .waits (hdb ▸ hx) hst fun ha => ?_
      exact (happroached.mp ha).elim hno fun ⟨_, he⟩ => nomatch he
  | some r =>
      rw [hr, Option.getD_some] at happroached hdb hcalls
      -- a step that tells of no scope leaves the task away from any
      have haway : (∀ s, .approached t s ∉ r.2) → ¬ (h.move (.poll t)).Approached t :=
        fun hr ha => (happroached.mp ha).elim hno fun ⟨s, he⟩ => hr s he
      have htask : ∀ {y}, r.1.tasks[t]? = some y → (h.move (.poll t)).db.tasks[t]? = some y :=
        fun hy => hdb ▸ hy
      cases Database.attends_of_poll? hx hst hr with
      | begins => exact .waits (htask hx) hst (haway (by simp))
      | finishes => exact .waits (htask hx) hst (haway (by simp))
      | proceeds => exact .waits (htask (Database.getElem?_setStage hx _)) rfl (haway (by simp))
      | fails hlt he =>
          refine .refused hlt (hended he) ⟨?_, haway (by simp [Database.complete]), hcalls⟩
          exact result?_eq_some_iff.mpr ⟨_, htask (Database.getElem?_setStage hx _), rfl⟩
      | passes hall =>
          have hle : n ≤ next := by
            rcases hall with hle | hnone
            · exact hle
            · exact hlimit.trans (List.getElem?_eq_none_iff.mp hnone)
          refine .passed (fun i hi => hended (hseen i (hi.trans_le hle))) ?_
          obtain ⟨stage, hx', hb, hcase⟩ := h.db.exists_stage_pass hx goal
          refine ⟨_, htask hx', hb, ?_⟩
          rcases hcase with he | ⟨hg, hend⟩
          · exact .inl (happroached.mpr (.inr he))
          · exact .inr ⟨hgoal.trans hg, hend⟩

/-- **Every move leaves a task that waited** where such a task can stand. -/
theorem Stands.move (ha : h.Stands t n) (hs : h.Sound) (hp : h.Paced b f) (m : Move) :
    (h.move m).Stands t n := by
  cases ha with
  | waits hx hst hno =>
      obtain ⟨c, hh⟩ := h.db.exists_happens m
      obtain ⟨x', hx', -, ⟨rfl, -⟩ | ⟨rfl, -⟩⟩ := hh.exists_task hx
      · refine .waits hx' hst fun ha => ?_
        rcases (h.approached_move m t).mp ha with ha | ⟨s, he⟩
        · exact hno ha
        · obtain ⟨y, hy, hb⟩ := hh.not_barred he
          rw [← Option.some.inj (hx'.symm.trans hy), hst] at hb
          cases hb
      · exact hp.stands_poll hs hx hst hno
  | refused hi he hr => exact .refused hi (he.move m) (hr.move m)
  | passed hall hr => exact .passed (hall.move m) (hr.move m)

/-! ### What every history preserves -/

/-- **The gate is watched.** -/
structure Gating (h : History) : Prop where
  /-- A task that has not begun neither waited nor came to a scope. -/
  unseen : ∀ t, (∀ x, h.db.tasks[t]? = some x → x.stage = .fresh) →
    (∀ n, .gated t n ∉ h.events) ∧ ¬ h.Approached t
  /-- A gated operation that has begun has waited. -/
  marked : ∀ t x goal, h.db.tasks[t]? = some x → x.operation.goal? = some goal →
    x.stage ≠ .fresh → ∃ n, .gated t n ∈ h.events
  /-- A task that waited did so for initializers that were there. -/
  counted : ∀ t n, .gated t n ∈ h.events → n ≤ h.db.initializers.length
  /-- It stands where such a task can stand. -/
  stands : ∀ t n, .gated t n ∈ h.events → h.Stands t n

/-- After a move, too, a task that has not begun neither waited nor came to a scope. -/
theorem Gating.unseen_move (hg : h.Gating) (m : Move) (t : TaskId)
    (hf : ∀ x, (h.move m).db.tasks[t]? = some x → x.stage = .fresh) :
    (∀ n, .gated t n ∉ (h.move m).events) ∧ ¬ (h.move m).Approached t := by
  obtain ⟨c, hh⟩ := h.db.exists_happens m
  obtain ⟨hgated, hno⟩ : (∀ n, .gated t n ∉ h.events) ∧ ¬ h.Approached t := by
    refine hg.unseen t fun x hx => ?_
    obtain ⟨x', hx', -, ⟨rfl, -⟩ | ⟨-, hst⟩⟩ := hh.exists_task hx
    · exact hf x' hx'
    · exact absurd (hf x' hx') hst.not_fresh
  refine ⟨fun n he => ?_, fun ha => ?_⟩
  · rcases List.mem_append.mp he with he | he
    · exact hgated n he
    · obtain ⟨-, o, replies, goal, -, hx', -⟩ := hh.gated he
      cases hf _ hx'
  · rcases (h.approached_move m t).mp ha with ha | ⟨s, he⟩
    · exact hno ha
    · obtain ⟨y, hy, hb⟩ := hh.not_barred he
      rw [hf y hy] at hb
      cases hb

/-- After a move, too, a gated operation that has begun has waited. -/
theorem Gating.marked_move (hg : h.Gating) (m : Move) (t : TaskId) (x' : Task)
    (goal : Work × Option ScopeId) (hx' : (h.move m).db.tasks[t]? = some x')
    (hgoal : x'.operation.goal? = some goal) (hne : x'.stage ≠ .fresh) :
    ∃ n, .gated t n ∈ (h.move m).events := by
  obtain ⟨c, hh⟩ := h.db.exists_happens m
  have hold (hmem : ∃ n, .gated t n ∈ h.events) : ∃ n, .gated t n ∈ (h.move m).events :=
    hmem.imp fun n he => List.mem_append_left _ he
  rcases hh.task hx' with ⟨-, hf, -⟩ | ⟨x, hx, ⟨rfl, -⟩ | ⟨-, hst⟩⟩
  · exact absurd hf hne
  · exact hold (hg.marked t x' goal hx hgoal hne)
  · rw [hst.operation] at hgoal
    by_cases hf : x.stage = .fresh
    · obtain ⟨-, hes⟩ := hst.of_fresh hgoal hf
      refine ⟨h.db.initializers.length, List.mem_append_right _ ?_⟩
      rw [hes]
      exact List.mem_singleton_self _
    · exact hold (hg.marked t x goal hx hgoal hf)

/-- **Every move is watched.** -/
theorem Gating.move (hg : h.Gating) (hs : h.Sound) (hp : h.Paced b f) (m : Move) :
    (h.move m).Gating := by
  obtain ⟨c, hh⟩ := h.db.exists_happens m
  refine ⟨hg.unseen_move m, hg.marked_move m, fun t n he => ?_, fun t n he => ?_⟩
  · have hlen : h.db.initializers.length ≤ (h.move m).db.initializers.length :=
      h.db.length_initializers_move m
    rcases List.mem_append.mp he with he | he
    · exact (hg.counted t n he).trans hlen
    · exact (hh.gated he).1.le.trans hlen
  · rcases List.mem_append.mp he with he | he
    · exact (hg.stands t n he).move hs hp m
    · obtain ⟨-, o, replies, goal, hx, hx', hes⟩ := hh.gated he
      refine .waits hx' rfl fun ha => ?_
      rcases (h.approached_move m t).mp ha with ha | ⟨s, hmem⟩
      · refine (hg.unseen t fun x hx₀ => ?_).2 ha
        rw [← Option.some.inj (hx.symm.trans hx₀)]
      · rw [hes] at hmem
        simp at hmem

/-- **The gate of a new database is watched**, for no one was there yet. -/
theorem gating_opening (interval : Nat) (timed : Bool) : (opening interval timed).Gating := by
  have hgated (t n) : .gated t n ∉ (opening interval timed).events := by
    rw [events_opening]
    simp
  refine ⟨fun t _ => ⟨hgated t, fun ⟨s, hmem⟩ => ?_⟩, fun t x goal hx => ?_,
    fun t n he => absurd he (hgated t n), fun t n he => absurd he (hgated t n)⟩
  · rw [events_opening] at hmem
    simp at hmem
  · rw [tasks_opening] at hx
    cases hx

/-- **The gate of every history is watched.** -/
theorem gating_history (interval : Nat) (timed : Bool) (moves : List Move) :
    (history interval timed moves).Gating :=
  (play_induction (p := fun h => h.Sound ∧ (∃ b f, h.Paced b f) ∧ h.Gating)
    ⟨sound_history interval timed [], exists_paced interval timed [], gating_opening interval timed⟩
    (fun _ m ⟨hs, ⟨_, _, hp⟩, hg⟩ => ⟨hs.move m, hp.move m, hg.move hs hp m⟩) moves).2.2

/-! ### No one waits longer than need be -/

/-- **It is decided how the waiting for the first `n` initializers ends**: all of them have succeeded,
or one has failed. -/
def Decided (h : History) (n : Nat) : Prop :=
  h.Ready n ∨ ∃ i < n, ∃ e, h.db.EndedWith i (.error e)

/-- What is decided about the initializers is decided for good. -/
theorem Decided.move (hd : h.Decided n) (m : Move) : (h.move m).Decided n :=
  hd.imp (fun hr => hr.move m) fun ⟨i, hi, e, he⟩ => ⟨i, hi, e, he.move m⟩

/-- When that is decided, an initializer behind those that succeeded is over too. -/
theorem Paced.exists_ended {next : Nat} (hp : h.Paced b f) (hd : h.Decided n)
    (hseen : ∀ j < next, h.db.EndedWith j (.ok ())) (hlt : next < n) :
    ∃ r, h.db.EndedWith next r := by
  rcases hd with hr | ⟨i, -, e, he⟩
  · exact ⟨_, hr next hlt⟩
  · rcases Nat.lt_trichotomy next i with hbefore | rfl | hbehind
    · have hif := hp.lt_of_ended he
      have hahead := hp.ahead
      exact ⟨_, hp.passed next (by omega)⟩
    · exact ⟨_, he⟩
    · cases (hseen i hbehind).unique he

/-- A task that has its initializers behind it does not come back to them. -/
theorem exists_not_barred_play (hx : h.db.tasks[t]? = some x) (hb : x.stage.barred = false)
    (later : List Move) :
    ∃ x', (h.play later).db.tasks[t]? = some x' ∧ x'.stage.barred = false := by
  refine play_induction (p := fun h => ∃ x, h.db.tasks[t]? = some x ∧ x.stage.barred = false)
    ⟨x, hx, hb⟩ (fun h m ⟨x, hx, hb⟩ => ?_) later
  obtain ⟨c, hh⟩ := h.db.exists_happens m
  obtain ⟨x', hx', -, ⟨rfl, -⟩ | ⟨-, hst⟩⟩ := hh.exists_task hx
  · exact ⟨x', hx', hb⟩
  · exact ⟨x', hx', hst.not_barred hb⟩

/-- **Each turn takes a waiting task one initializer on**, whatever all others do in between, once it
is decided how its waiting ends. -/
theorem Paced.exists_not_barred {goal : Option (Work × Option ScopeId)} {next : Nat}
    {later : List Move} (hp : h.Paced b f) (hd : h.Decided n) (hx : h.db.tasks[t]? = some x)
    (hst : x.stage = .initializing goal next n) (hpos : 0 < turns t later)
    (hk : n < next + turns t later) :
    ∃ x', (h.play later).db.tasks[t]? = some x' ∧ x'.stage.barred = false := by
  induction later generalizing h x next b f with
  | nil => exact absurd hpos (Nat.lt_irrefl 0)
  | cons m later ih =>
      rw [turns_cons] at hk hpos
      obtain ⟨b', f', hp'⟩ := hp.move m
      cases hm : m.polls t with
      | true =>
          obtain rfl := Move.eq_poll hm
          obtain ⟨-, hseen⟩ := hp.attends t x goal next n hx hst
          obtain ⟨x', hx', ⟨hlt, hst'⟩ | hb⟩ := Database.turn hx hst (hp.exists_ended hd hseen)
          · rw [hm, if_pos rfl] at hk
            exact ih hp' (hd.move _) hx' hst' (by omega) (by omega)
          · exact exists_not_barred_play (h := h.move (.poll t)) hx' hb later
      | false =>
          obtain ⟨c, hh⟩ := h.db.exists_happens m
          obtain ⟨x', hx', -, ⟨rfl, -⟩ | ⟨rfl, -⟩⟩ := hh.exists_task hx
          · rw [hm, if_neg Bool.false_ne_true] at hk hpos
            exact ih hp' (hd.move m) hx' hst hpos hk
          · simp [Move.polls] at hm

/-- **After more turns than initializers a task does not wait any more.** -/
theorem Stands.exists_not_barred {later : List Move} (ha : h.Stands t n) (hp : h.Paced b f)
    (hd : h.Decided n) (hk : n < turns t later) :
    ∃ x', (h.play later).db.tasks[t]? = some x' ∧ x'.stage.barred = false := by
  cases ha with
  | @waits x goal next hx hst =>
      exact hp.exists_not_barred hd hx hst (Nat.zero_lt_of_lt hk) (Nat.lt_add_left next hk)
  | refused _ _ hr =>
      obtain ⟨x, hx, hend⟩ := result?_eq_some_iff.mp hr.1
      exact exists_not_barred_play hx (by rw [hend]; rfl) later
  | passed _ hr =>
      obtain ⟨x, hx, hb, -⟩ := hr
      exact exists_not_barred_play hx hb later

/-! ### The guarantee -/

/-- **The initializers run in order**, each at most once. -/
structure Sequential (h : History) : Prop where
  /-- Those that began are the first ones, in order and once each. -/
  begun : h.begun = List.range h.begun.length
  /-- So are those that ended. -/
  initialized : h.initialized = List.range h.initialized.length
  /-- At most one is under way. -/
  alone : h.initialized.length ≤ h.begun.length ∧ h.begun.length ≤ h.initialized.length + 1
  /-- One begins only when all before it have succeeded. -/
  behind : ∀ m i, .began i ∈ (h.db.move m).2 → h.Ready i
  /-- When one has failed, none behind it ever begins. -/
  stopped : ∀ i e, h.db.EndedWith i (.error e) → ∀ later, ∀ j ∈ (h.play later).begun, j ≤ i

/-- **What the initializers are to a task** that began to wait for `n` of them. -/
structure Guarded (h : History) (t : TaskId) (n : Nat) : Prop where
  /-- They are registered. -/
  known : n ≤ h.db.initializers.length
  /-- Before all of them have succeeded, the task has come to no scope and has made no call, and its
  turns do nothing to the scheduler. -/
  shut : ¬ h.Ready n → ¬ h.Approached t ∧ h.callsOf t = [] ∧
    (h.db.move (.poll t)).1.scheduler = h.db.scheduler
  /-- If it is over before that, then because one of them has failed. -/
  failed : ¬ h.Ready n → ∀ r, h.result? t = some r →
    ∃ i < n, ∃ e, h.db.EndedWith i (.error e) ∧ r = .error (.initialization e.message)
  /-- Once all of them have succeeded, `n + 1` turns take the task past them, however many more were
  registered. -/
  passes : h.Ready n → ∀ later, n < turns t later → (h.play later).Reached t
  /-- Once one of them has failed, the task fails with it after as many turns. -/
  fails : ∀ i < n, ∀ e, h.db.EndedWith i (.error e) → ∀ later, n < turns t later →
    (h.play later).Refused t e
  /-- When all is quiet, the task waits only while one of them is under way and held back. -/
  held : h.db.Quiet → ¬ h.Reached t → (∀ e, ¬ h.Refused t e) → ∃ i < n, ∃ y,
    h.db.initializers[i]? = some y ∧ y.phase = .running ∧ ¬ h.db.isOpen y.hold

/-- An initializer that is over stays so, with its result. -/
theorem endedWith_play {r : Except Fault Unit} (hi : h.db.EndedWith i r) (later : List Move) :
    (h.play later).db.EndedWith i r :=
  play_induction (p := fun h => h.db.EndedWith i r) hi (fun _ m ih => ih.move m) later

/-- **In every history the initializers run one after the other**, and none behind one that has
failed. -/
theorem sequential_history (interval : Nat) (timed : Bool) (moves : List Move) :
    (history interval timed moves).Sequential := by
  obtain ⟨b, f, hp⟩ := exists_paced interval timed moves
  refine ⟨?_, ?_, ?_, fun m i hi => hp.succeeded_of_began hi, fun i e he later j hj => ?_⟩
  · rw [hp.begun, List.length_range]
  · rw [hp.initialized, List.length_range]
  · rw [hp.begun, hp.initialized, List.length_range, List.length_range]
    exact ⟨hp.ahead, hp.alone⟩
  · have he := endedWith_play he later
    rw [history_play] at he hj
    obtain ⟨b', f', hp'⟩ := exists_paced interval timed (moves ++ later)
    rw [hp'.begun, List.mem_range] at hj
    exact Nat.le_of_lt_succ (hj.trans_le (hp'.le_of_failed he))

/-- A task that came to a scope or called the engine waited for initializers that succeeded. -/
theorem Stands.ready (ha : h.Stands t n) (hs : h.Sound)
    (hin : h.Approached t ∨ h.callsOf t ≠ []) : h.Ready n := by
  cases ha with
  | waits hx hst hno =>
      have hcalls : h.callsOf t = [] := hs.callsOf_eq_nil hx (by rw [hst]; rfl)
      exact absurd (hin.resolve_left hno) (not_not_intro hcalls)
  | refused _ _ hr => exact absurd (hin.resolve_left hr.2.1) (not_not_intro hr.2.2)
  | passed hall _ => exact hall

/-- Before its initializers have succeeded, a task does nothing to the scheduler. -/
theorem Stands.scheduler_poll (ha : h.Stands t n) (hn : ¬ h.Ready n) :
    (h.db.move (.poll t)).1.scheduler = h.db.scheduler := by
  cases ha with
  | waits hx hst => exact Database.scheduler_poll hx (.inl (by rw [hst]; rfl))
  | refused _ _ hr =>
      obtain ⟨x, hx, hend⟩ := result?_eq_some_iff.mp hr.1
      exact Database.scheduler_poll hx (.inr ⟨_, hend⟩)
  | passed hall => exact absurd hall hn

/-- **A task that does not wait any more** was refused, or has its initializers behind it. -/
theorem Stands.settled (ha : h.Stands t n) (hx : h.db.tasks[t]? = some x)
    (hb : x.stage.barred = false) :
    (∃ i < n, ∃ e, h.db.EndedWith i (.error e) ∧ h.Refused t e) ∨ h.Ready n ∧ h.Reached t := by
  cases ha with
  | waits hx' hst =>
      rw [← Option.some.inj (hx.symm.trans hx')] at hst
      rw [hst] at hb
      cases hb
  | refused hi he hr => exact .inl ⟨_, hi, _, he, hr⟩
  | passed hall hr => exact .inr ⟨hall, hr⟩

/-- A task that waits has no result. -/
theorem Stands.of_result {r : Except Fault Outcome} (ha : h.Stands t n) (hn : ¬ h.Ready n)
    (hr : h.result? t = some r) :
    ∃ i < n, ∃ e, h.db.EndedWith i (.error e) ∧ r = .error (.initialization e.message) := by
  obtain ⟨x, hx, hend⟩ := result?_eq_some_iff.mp hr
  rcases ha.settled hx (by rw [hend]; rfl) with ⟨i, hi, e, he, href⟩ | ⟨hall, -⟩
  · exact ⟨i, hi, e, he, Option.some.inj (hr.symm.trans href.1)⟩
  · exact absurd hall hn

/-- A task that can take no step waits for an initializer that is held back, if it waits at all. -/
theorem Stands.exists_held (ha : h.Stands t n) (hq : h.db.poll? t = none) (hreached : ¬ h.Reached t)
    (hrefused : ∀ e, ¬ h.Refused t e) : ∃ i < n, ∃ y, h.db.initializers[i]? = some y ∧
      y.phase = .running ∧ ¬ h.db.isOpen y.hold := by
  cases ha with
  | waits hx hst =>
      obtain ⟨hlt, hy⟩ := Database.exists_held hx hst hq
      exact ⟨_, hlt, hy⟩
  | refused _ _ hr => exact absurd hr (hrefused _)
  | passed _ hr => exact absurd hr hreached

/-- **A task that has had its turns** was refused, or has its initializers behind it. -/
theorem settled_later {later : List Move}
    (hg : .gated t n ∈ (history interval timed moves).events)
    (hd : (history interval timed moves).Decided n) (hk : n < turns t later) :
    (∃ i < n, ∃ e, (history interval timed (moves ++ later)).db.EndedWith i (.error e) ∧
        (history interval timed (moves ++ later)).Refused t e) ∨
      (history interval timed (moves ++ later)).Ready n ∧
        (history interval timed (moves ++ later)).Reached t := by
  obtain ⟨b, f, hp⟩ := exists_paced interval timed moves
  have ha := (gating_history interval timed moves).stands t n hg
  obtain ⟨x, hx, hb⟩ := ha.exists_not_barred hp hd hk
  rw [history_play] at hx
  refine ((gating_history interval timed (moves ++ later)).stands t n ?_).settled hx hb
  rw [← history_play, events_play]
  exact List.mem_append_left _ hg

/-- **In every history the initializers guard the tasks** that wait for them. -/
theorem guarded_history (hg : .gated t n ∈ (history interval timed moves).events) :
    (history interval timed moves).Guarded t n := by
  have hs := sound_history interval timed moves
  have hgating := gating_history interval timed moves
  have ha := hgating.stands t n hg
  refine ⟨hgating.counted t n hg, fun hn => ⟨fun ha' => ?_, ?_, ha.scheduler_poll hn⟩,
    fun hn r hr => ha.of_result hn hr,
    fun hall later hk => ?_, fun i hi e he later hk => ?_, fun hq => ha.exists_held (hq t)⟩
  · exact hn (ha.ready hs (.inl ha'))
  · by_contra hcalls
    exact hn (ha.ready hs (.inr hcalls))
  · have hall' := hall.play later
    rw [history_play] at hall' ⊢
    rcases settled_later hg (.inl hall) hk with ⟨i, hi, e, he, -⟩ | ⟨-, hr⟩
    · cases (hall' i hi).unique he
    · exact hr
  · have he' := endedWith_play he later
    rw [history_play] at he' ⊢
    rcases settled_later hg (.inr ⟨i, hi, e, he⟩) hk with ⟨j, hj, e', hej, hr⟩ | ⟨hall, -⟩
    · obtain ⟨b, f, hp⟩ := exists_paced interval timed (moves ++ later)
      obtain ⟨-, rfl⟩ := hp.failed_unique hej he'
      exact hr
    · cases (hall i hi).unique he'

/-- **Initializers run in order, at most once, and guard everything.** In every history the
initializers are sequential. A task begins to wait for exactly those that are registered then, among
them all that are over, and they guard it from then on: it touches nothing before all of them have
succeeded, it fails with the one that fails, and neither those that are registered later nor other
tasks keep it waiting. No gated operation slips past: whoever came to a scope or called the engine has
waited, and for initializers that succeeded. -/
theorem initializers_guard (interval : Nat) (timed : Bool) (moves : List Move) :
    (history interval timed moves).Sequential ∧
      (∀ m t n, .gated t n ∈ ((history interval timed moves).db.move m).2 →
        n = (history interval timed moves).db.initializers.length ∧
          ∀ i r, (history interval timed moves).db.EndedWith i r → i < n) ∧
      (∀ t n, .gated t n ∈ (history interval timed moves).events →
        (history interval timed moves).Guarded t n) ∧
      ∀ t x goal, (history interval timed moves).db.tasks[t]? = some x →
        x.operation.goal? = some goal →
          (history interval timed moves).Approached t ∨
            (history interval timed moves).callsOf t ≠ [] →
          ∃ n, .gated t n ∈ (history interval timed moves).events ∧
            (history interval timed moves).Ready n := by
  have hs := sound_history interval timed moves
  have hgating := gating_history interval timed moves
  refine ⟨sequential_history interval timed moves, fun m t n he => ?_, fun t n => guarded_history,
    fun t x goal hx hgoal hin => ?_⟩
  · obtain ⟨c, hh⟩ := (history interval timed moves).db.exists_happens m
    obtain ⟨rfl, -⟩ := hh.gated he
    exact ⟨rfl, fun i r ⟨_, hi, _⟩ => (List.getElem?_eq_some_iff.mp hi).1⟩
  · have hne : x.stage ≠ .fresh := by
      intro hf
      rcases hin with ha | hcalls
      · exact (hgating.unseen t fun y hy => Option.some.inj (hx.symm.trans hy) ▸ hf).2 ha
      · exact hcalls (hs.callsOf_eq_nil hx (by rw [hf]; rfl))
    obtain ⟨n, he⟩ := hgating.marked t x goal hx hgoal hne
    exact ⟨n, he, (hgating.stands t n he).ready hs hin⟩

/-- A run in which an initializer that fails is registered while a task waits. -/
def growing : List Move :=
  [.act (.addInitializer none (.ok ())), .act (.issue (.query .get "x" NameMap.empty none) []),
    .poll 0, .act (.addInitializer none (.error (.connection "boom"))),
    .act (.issue (.query .run "x" NameMap.empty none) []), .poll 1, .poll 0, .poll 1, .poll 1,
    .poll 1, .poll 1]

/-- The first of two tasks came before an initializer that fails, the second after it. However they
take turns, the first is let through and the second is refused. -/
theorem initializers_guard_growing :
    (history 0 false growing).Sequential ∧
      (history 0 false (growing ++ [.poll 1, .poll 0, .poll 1, .poll 0, .poll 1])).Reached 0 ∧
      (history 0 false (growing ++ [.poll 1, .poll 0, .poll 1, .poll 0, .poll 1])).Refused 1
        (.connection "boom") := by
  obtain ⟨hsequential, -, hguarded, -⟩ := initializers_guard 0 false growing
  have hfirst : .gated 0 1 ∈ (history 0 false growing).events := by
    with_unfolding_all exact .tail _ (.head _)
  have hsecond : .gated 1 2 ∈ (history 0 false growing).events := by
    with_unfolding_all exact .tail _ (.tail _ (.head _))
  have hready : (history 0 false growing).Ready 1 := by
    intro i hi
    obtain rfl : i = 0 := by omega
    exact ⟨⟨none, .ok (), .finished⟩, by with_unfolding_all rfl, rfl, rfl⟩
  have hfail : (history 0 false growing).db.EndedWith 1 (.error (.connection "boom")) :=
    ⟨⟨none, .error (.connection "boom"), .finished⟩, by with_unfolding_all rfl, rfl, rfl⟩
  rw [← history_play]
  exact ⟨hsequential, (hguarded 0 1 hfirst).passes hready _ (by decide),
    (hguarded 1 2 hsecond).fails 1 (by decide) _ hfail _ (by decide)⟩

end History

end ScopedSql
