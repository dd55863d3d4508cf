import ScopedSql.Proofs.Database.Gate
import ScopedSql.Proofs.Database.Readiness
import ScopedSql.Proofs.Query.Malformed

/-!
# Malformed requests touch nothing

A request is planned in the first step of its task, before that waits for anything. A request that is
malformed ends there: its task alone changes, in whatever state the database is
(`Database.poll?_of_malformed`), and in no run does it wait for an initializer, come to a scope or call
the engine (`Database.run_of_malformed`). Any other request goes on to the gate. It makes one call at
most (`History.callsOf_planned`), and none if the gate refuses it, because an initializer failed or its
scope was ended (`History.Barred`).
-/

namespace ScopedSql

/-- **A task does something that others can see**: it begins to wait for the initializers, it comes to a
scope, or it calls the engine. -/
inductive Event.Touches (t : TaskId) : Event → Prop
  /-- It begins to wait. -/
  | gated (n : Nat) : Touches t (.gated t n)
  /-- It comes to a scope. -/
  | approached (s : ScopeId) : Touches t (.approached t s)
  /-- It calls the engine. -/
  | called (call : Call) : Touches t (.called t call)

/-- The one engine call of a plan. -/
def Plan.call (a : Plan) : Call := .direct a.verb a.statement.text a.statement.bindings

namespace Database

variable {db db' : Database} {t : TaskId} {x : Task} {c : Scheduler.Call} {es : List Event} {m : Move}
  {table : Table} {r : Request} {replies : List Reply} {e : Fault}

/-- **A task that does not take the step of a move**, or is over, stays as it is and shows itself in
nothing that happens. -/
theorem Happens.idle (h : db.Happens m c db' es) (hx : db.tasks[t]? = some x)
    (hm : m = .poll t → ∃ result, x.stage = .finished result) :
    db'.tasks[t]? = some x ∧ ∀ ev ∈ es, ¬ ev.Touches t := by
  obtain ⟨x', hx', -, ⟨rfl, -⟩ | ⟨rfl, hst⟩⟩ := h.exists_task hx
  case inr =>
    obtain ⟨result, hend⟩ := hm rfl
    exact absurd hend hst.unfinished
  refine ⟨hx', fun ev hev htouch => ?_⟩
  cases htouch with
  | gated n =>
      obtain ⟨-, o, replies, goal, hold, hnew, -⟩ := h.gated hev
      cases hold.symm.trans (hx.trans (hx'.symm.trans hnew))
  | approached s =>
      obtain ⟨rfl, y, work, hy, hk, -⟩ := h.approached hev
      obtain ⟨result, hend⟩ := hm rfl
      obtain rfl : x' = y := Option.some.inj (hx.symm.trans hy)
      rw [hend] at hk
      cases hk
  | called call =>
      obtain ⟨rfl, -, -, y, purpose, hy, hk, -⟩ := h.called hev
      obtain ⟨result, hend⟩ := hm rfl
      obtain rfl : x' = y := Option.some.inj (hx.symm.trans hy)
      rw [hend] at hk
      cases hk with
      | transacts ht =>
          cases ht with
          | begun hb => cases hb

/-- A task that is over stays so in every run. -/
theorem run_of_finished {result : Except Fault Outcome} (hx : db.tasks[t]? = some x)
    (hs : x.stage = .finished result) (moves : List Move) :
    (db.run moves).1.tasks[t]? = some x ∧ ∀ ev ∈ (db.run moves).2, ¬ ev.Touches t := by
  induction moves generalizing db with
  | nil => exact ⟨hx, nofun⟩
  | cons m moves ih =>
      obtain ⟨c, hh⟩ := db.exists_happens m
      obtain ⟨hx', hfirst⟩ := hh.idle hx fun _ => ⟨result, hs⟩
      obtain ⟨hend, hrest⟩ := ih hx'
      exact ⟨hend, List.forall_mem_append.mpr ⟨hfirst, hrest⟩⟩

/-- **The first step of a malformed request** ends its task, and nothing else changes. -/
theorem poll?_of_malformed (hm : r.Malformed table e)
    (hx : db.tasks[t]? = some ⟨.request table r, replies, .fresh⟩) :
    db.poll? t = some
      ({ db with tasks := db.tasks.set t ⟨.request table r, replies, .finished (.error e)⟩ },
        [.completed t (.error e)]) := by
  have hplan := Request.plan_eq_error_iff.mpr hm
  simp only [poll?, hx, Option.bind_some, pollStage?, launch, hplan, complete, setStage,
    modify_tasks hx]

/-- **The task of a malformed request** is as it was issued until its first turn, and has failed from
then on. In no run does it touch anything. -/
theorem run_of_malformed (hm : r.Malformed table e)
    (hx : db.tasks[t]? = some ⟨.request table r, replies, .fresh⟩) (moves : List Move) :
    (db.run moves).1.tasks[t]? = some
        ⟨.request table r, replies, if turns t moves = 0 then .fresh else .finished (.error e)⟩ ∧
      ∀ ev ∈ (db.run moves).2, ¬ ev.Touches t := by
  induction moves generalizing db with
  | nil => exact ⟨hx, nofun⟩
  | cons m moves ih =>
      rw [turns_cons]
      cases hturn : m.polls t with
      | true =>
          obtain rfl := Move.eq_poll hturn
          have hmove : db.move (.poll t) = _ := congrArg (·.getD (db, [])) (poll?_of_malformed hm hx)
          have hend : (db.move (.poll t)).1.tasks[t]? =
              some ⟨.request table r, replies, .finished (.error e)⟩ := by
            rw [hmove]
            exact List.getElem?_set_self (List.getElem?_eq_some_iff.mp hx).1
          have hfirst : ∀ ev ∈ (db.move (.poll t)).2, ¬ ev.Touches t := by
            rw [hmove]
            exact List.forall_mem_singleton.mpr nofun
          obtain ⟨hlater, hrest⟩ := run_of_finished hend rfl moves
          exact ⟨hlater, List.forall_mem_append.mpr ⟨hfirst, hrest⟩⟩
      | false =>
          obtain ⟨c, hh⟩ := db.exists_happens m
          obtain ⟨hx', hfirst⟩ := hh.idle hx (by rintro rfl; simp [Move.polls] at hturn)
          obtain ⟨hend, hrest⟩ := ih hx'
          exact ⟨hend, List.forall_mem_append.mpr ⟨hfirst, hrest⟩⟩

end Database

namespace History

variable {interval : Nat} {timed : Bool} {moves : List Move} {t : TaskId} {x : Task} {table : Table}
  {r : Request} {a : Plan} {e : Fault}

/-- **The gate refuses a task**, and with what fault: an initializer that it waits for has failed, or it
came to a scope that had been ended. -/
inductive Barred (interval : Nat) (timed : Bool) (moves : List Move) (t : TaskId) : Fault → Prop
  /-- An initializer has failed. -/
  | initializer {n i : Nat} {e : Fault} : .gated t n ∈ (history interval timed moves).events → i < n →
      (history interval timed moves).db.EndedWith i (.error e) →
        Barred interval timed moves t (.initialization e.message)
  /-- The scope had been ended. -/
  | scope {before : List Move} {m : Move} {later : List Move} {s : ScopeId} :
      moves = before ++ m :: later →
        .approached t s ∈ ((history interval timed before).db.move m).2 →
          (history interval timed before).db.scheduler.isEnded s →
            Barred interval timed moves t (.scopeEnded s.number)

/-- **A task that the gate refuses** makes no call, and can only end with that fault. -/
theorem Barred.refused (hb : Barred interval timed moves t e) :
    (history interval timed moves).callsOf t = [] ∧
      ∀ result, (history interval timed moves).result? t = some result → result = .error e := by
  cases hb with
  | @initializer n i e hg hi he =>
      have hguarded := guarded_history hg
      have hn : ¬ (history interval timed moves).Ready n := fun hall => by
        cases (hall i hi).unique he
      refine ⟨(hguarded.shut hn).2.1, fun result hr => ?_⟩
      obtain ⟨j, -, e', he', rfl⟩ := hguarded.failed hn result hr
      obtain ⟨b, f, hp⟩ := exists_paced interval timed moves
      rw [(hp.failed_unique he' he).2]
  | @scope before m later s heq ha he =>
      subst heq
      obtain ⟨hresult, hcalls⟩ := (sound_history interval timed before).rejected ha he later
      rw [history_mid]
      exact ⟨hcalls, fun result hr => (Option.some.inj (hresult.symm.trans hr)).symm⟩

/-- A request that is planned is after its one call. -/
theorem goal?_of_plan (hp : r.plan table = .ok a) : (Operation.request table r).goal? = some
    (.query a.verb a.statement.text a.statement.bindings a.counting, a.target) := by
  simp [Operation.goal?, hp]

/-- A request that came to a scope in time calls once. -/
theorem calls_of_approached {before later : List Move} {m : Move} {s : ScopeId}
    (hp : r.plan table = .ok a)
    (hx : (history interval timed (before ++ m :: later)).db.tasks[t]? = some x)
    (ho : x.operation = .request table r)
    (ha : .approached t s ∈ ((history interval timed before).db.move m).2)
    (he : ¬ (history interval timed before).db.scheduler.isEnded s) :
    ∃ reply, (history interval timed (before ++ m :: later)).CallsOnce t s a.call
      (fun answer => answer.bind (Plan.read a.verb a.counting)) reply := by
  have hs := sound_history interval timed before
  rw [history_mid] at hx ⊢
  obtain ⟨c, hh⟩ := (history interval timed before).db.exists_happens m
  obtain ⟨-, y, work, hy, -⟩ := hh.approached ha
  have hyo : y.operation = .request table r := by
    rw [← ho]
    exact (operation_play hy (m :: later) hx).symm
  have hadmits := hs.admitted hy (by rw [hyo]; exact goal?_of_plan hp) ha he later
  exact ⟨_, hadmits.callsOnce rfl fun _ => rfl⟩

/-- **A request that is planned makes its call at most once.** -/
theorem callsOf_planned (hp : r.plan table = .ok a)
    (hx : (history interval timed moves).db.tasks[t]? = some x) (ho : x.operation = .request table r) :
    (history interval timed moves).callsOf t = [] ∨
      (history interval timed moves).callsOf t = [a.call] := by
  refine or_iff_not_imp_left.mpr fun hc => ?_
  obtain ⟨before, m, later, rfl, ha⟩ := noneSlipsBy interval timed moves t x _ _ hx
    (by rw [ho]; exact goal?_of_plan hp) hc
  by_cases he : (history interval timed before).db.scheduler.isEnded
      (a.target.getD (history interval timed before).db.scheduler.community)
  · exact absurd (Barred.scope rfl ha he).refused.1 hc
  · obtain ⟨reply, hcalls⟩ := calls_of_approached hp hx ho ha he
    exact hcalls.once.resolve_left hc

/-- **A request that is over without a call** was refused by the gate. -/
theorem exists_barred {result : Except Fault Outcome} (hp : r.plan table = .ok a)
    (hx : (history interval timed moves).db.tasks[t]? = some x) (ho : x.operation = .request table r)
    (hr : (history interval timed moves).result? t = some result)
    (hc : (history interval timed moves).callsOf t = []) :
    ∃ e, Barred interval timed moves t e ∧ result = .error e := by
  have hgoal := goal?_of_plan hp
  have hbar : ∀ {e}, Barred interval timed moves t e →
      ∃ e, Barred interval timed moves t e ∧ result = .error e :=
    fun hb => ⟨_, hb, hb.refused.2 result hr⟩
  have hend : x.stage = .finished result := by
    obtain ⟨y, hy, hend⟩ := result?_eq_some_iff.mp hr
    rwa [Option.some.inj (hx.symm.trans hy)]
  obtain ⟨n, hg⟩ := (gating_history interval timed moves).marked t x _ hx (by rw [ho]; exact hgoal)
    (by rw [hend]; nofun)
  cases (gating_history interval timed moves).stands t n hg with
  | waits hy hst =>
      rw [← Option.some.inj (hx.symm.trans hy), hend] at hst
      cases hst
  | refused hi he => exact hbar (.initializer hg hi he)
  | passed _ hreached =>
      obtain ⟨y, hy, -, ⟨s, ha⟩ | ⟨hnone, -⟩⟩ := hreached
      · obtain ⟨before, m, later, rfl, hmove⟩ := exists_move_of_approached ha
        by_cases hover : (history interval timed before).db.scheduler.isEnded s
        · exact hbar (.scope rfl hmove hover)
        · obtain ⟨reply, honce⟩ := calls_of_approached hp hx ho hmove hover
          cases hc.symm.trans (honce.result result hr).1
      · rw [← Option.some.inj (hx.symm.trans hy), ho, hgoal] at hnone
        cases hnone

/-- **Malformed requests touch nothing.** A request whose filter does not fit, one of whose columns is no
plain name, or that updates nothing, is refused for one fault, that of the filter before that of the
columns. Its task fails with it in its first step, and leaves the scopes, the initializers, the engine and
all other tasks as they are, in whatever state the database is; in no run does it wait for an
initializer, come to a scope or call the engine. Any other request is planned. It makes at most the one
call of its plan, and none if the gate refuses it, which is the only way for it to end without a call. -/
theorem malformed_requests_touch_nothing (table : Table) (r : Request) :
    (r.Flawed table → ∃! e, r.Malformed table e) ∧
      (∀ e, r.Malformed table e → ∀ (db : Database) (t : TaskId) (replies : List Reply),
        db.tasks[t]? = some ⟨.request table r, replies, .fresh⟩ →
          db.poll? t = some
              ({ db with tasks := db.tasks.set t ⟨.request table r, replies, .finished (.error e)⟩ },
                [.completed t (.error e)]) ∧
            ∀ moves, (∀ ev ∈ (db.run moves).2, ¬ ev.Touches t) ∧
              (db.run moves).1.tasks[t]? = some ⟨.request table r, replies,
                if turns t moves = 0 then .fresh else .finished (.error e)⟩) ∧
      (¬ r.Flawed table → ∃ a, r.plan table = .ok a ∧
        ∀ interval timed moves t x, (history interval timed moves).db.tasks[t]? = some x →
          x.operation = .request table r →
            ((history interval timed moves).callsOf t = [] ∨
              (history interval timed moves).callsOf t = [a.call]) ∧
            (∀ e, Barred interval timed moves t e → (history interval timed moves).callsOf t = [] ∧
              ∀ result, (history interval timed moves).result? t = some result →
                result = .error e) ∧
            ∀ result, (history interval timed moves).result? t = some result →
              (history interval timed moves).callsOf t = [] →
                ∃ e, Barred interval timed moves t e ∧ result = .error e) := by
  refine ⟨Request.Flawed.exists_unique, fun e hm db t replies hx => ⟨?_, fun moves => ?_⟩, fun hf => ?_⟩
  · exact Database.poll?_of_malformed hm hx
  · exact (Database.run_of_malformed hm hx moves).symm
  · obtain ⟨a, ha⟩ := Request.exists_plan_iff.mpr hf
    refine ⟨a, ha, fun interval timed moves t x hx ho => ⟨?_, fun e => Barred.refused, fun result => ?_⟩⟩
    · exact callsOf_planned ha hx ho
    · exact exists_barred ha hx ho

/-- A read with a bad filter and a bad column. -/
def badRead : Request :=
  .select (some (.comparison "1=1 OR id" .eq (.scalar .null))) { columns := some ["a b"] }

/-- A run in which the read is issued while an initializer is held and the scheduler is closed. -/
def heldBack : List Move :=
  [.act (.addInitializer (some "held") (.ok ())), .act .newScope, .act (.issue .closeScheduler []),
    .poll 0, .act (.issue (.request ⟨"t", {}⟩ badRead) [])]

/-- A run in which a count waits for an initializer that fails. -/
def failing : List Move :=
  [.act (.addInitializer none (.error (.connection "boom"))),
    .act (.issue (.request ⟨"t", {}⟩ (.count none none)) []), .poll 0, .poll 0, .poll 0, .poll 0]

/-- The read fails at once for its filter, with the initializer held and never begun. The count is well
formed and fails with the initializer, without a call. -/
theorem malformed_requests_touch_nothing_held :
    (((history 0 false heldBack).db.poll? 1).map Prod.snd =
        some [.completed 1 (.error (.invalidIdentifier "1=1 OR id"))] ∧
      ((history 0 false heldBack).db.poll? 1).map (fun step => step.1.initializers) =
        some (history 0 false heldBack).db.initializers) ∧
    (history 0 false failing).callsOf 0 = [] ∧
      (history 0 false failing).result? 0 = some (.error (.initialization "connection error: boom")) := by
  constructor
  · have hbad : badRead.Malformed ⟨"t", {}⟩ (.invalidIdentifier "1=1 OR id") := by
      refine .filter rfl ⟨[], ⟨"1=1 OR id", .eq, .scalar .null⟩, [], rfl, nofun, .column fun h => ?_⟩
      exact absurd (isIdentifier_iff.mpr h) (by decide)
    have hfresh : (history 0 false heldBack).db.tasks[1]? =
        some ⟨.request ⟨"t", {}⟩ badRead, [], .fresh⟩ := by with_unfolding_all rfl
    obtain ⟨-, hrefuses, -⟩ := malformed_requests_touch_nothing ⟨"t", {}⟩ badRead
    obtain ⟨hpoll, -⟩ := hrefuses _ hbad _ 1 [] hfresh
    rw [hpoll]
    exact ⟨rfl, rfl⟩
  · obtain ⟨-, -, hplans⟩ := malformed_requests_touch_nothing ⟨"t", {}⟩ (.count none none)
    obtain ⟨a, -, hgate⟩ := hplans (Request.exists_plan_iff.mp ⟨_, rfl⟩)
    have hresult : (history 0 false failing).result? 0 =
        some (.error (.initialization "connection error: boom")) := by with_unfolding_all rfl
    have hgated : .gated 0 1 ∈ (history 0 false failing).events := by
      with_unfolding_all exact .tail _ (.head _)
    have hfailed : (history 0 false failing).db.EndedWith 0 (.error (.connection "boom")) :=
      ⟨⟨none, .error (.connection "boom"), .finished⟩, by with_unfolding_all rfl, rfl, rfl⟩
    have hx : (history 0 false failing).db.tasks[0]? =
        some ⟨.request ⟨"t", {}⟩ (.count none none), [],
          .finished (.error (.initialization "connection error: boom"))⟩ := by with_unfolding_all rfl
    obtain ⟨-, hbarred, -⟩ := hgate 0 false failing 0 _ hx rfl
    exact ⟨(hbarred _ (.initializer hgated (by decide) hfailed)).1, hresult⟩

end History

end ScopedSql
