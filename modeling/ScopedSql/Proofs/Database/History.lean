import ScopedSql.Proofs.Database.Moves

/-!
# Histories

A history is a database after some moves, with everything that happened on the way and with the links
that the requests for user scopes have put behind the chain. `history` is the history of a run from a
new database (`db_play`, `events_play`), and what every move preserves holds of all of them
(`play_induction`).

`Sound` is what every history preserves (`sound_history`): the chain is sound, each task stands in a
stage that fits its operation, and a task that closes the scheduler waits for every user scope that is
not over.
-/

namespace ScopedSql

/-- **A history.** -/
structure History where
  /-- The database. -/
  db : Database
  /-- What happened. -/
  events : List Event
  /-- The links of the chain. -/
  links : Links

namespace History

/-- **The link that a move puts behind the chain**: the user scope that a request returns, and the
community scope that it makes current. -/
def link? (db : Database) : Move → Option (ScopeId × ScopeId)
  | .act .newScope =>
      match db.act .newScope with
      | (after, .scope user, _) => some (user, after.scheduler.community)
      | _ => none
  | _ => none

/-- The history of a new database. -/
def opening (interval : Nat) (timed : Bool) : History :=
  ⟨(Database.new interval timed).1, (Database.new interval timed).2, []⟩

/-- A history goes on by one move. -/
def move (h : History) (m : Move) : History :=
  ⟨(h.db.move m).1, h.events ++ (h.db.move m).2, h.links ++ (link? h.db m).toList⟩

/-- A history goes on by some moves. -/
def play (h : History) (moves : List Move) : History := moves.foldl move h

/-- The scopes of the chain, in order. -/
def chain (h : History) : List ScopeId := chainOf h.links

/-- The user scopes of the chain, in order. -/
def users (h : History) : List ScopeId := usersOf h.links

/-- The engine calls of a task so far. -/
def callsOf (h : History) (t : TaskId) : List Call := ScopedSql.callsOf t h.events

/-- The result of a task, if it is over. -/
def result? (h : History) (t : TaskId) : Option (Except Fault Outcome) :=
  (h.db.tasks[t]?).bind Task.result?

/-- A task waits for the start of a scope. -/
def Waits (h : History) (t : TaskId) (s : ScopeId) : Prop :=
  ∃ x work, h.db.tasks[t]? = some x ∧ x.stage = .awaitingStart work s

end History

/-- **The history of a run** from a new database. -/
def history (interval : Nat) (timed : Bool) (moves : List Move) : History :=
  (History.opening interval timed).play moves

/-- **A run keeps to a rule**: after what happened before, the rule allows each move. -/
def Keeps (rule : History → Move → Prop) (h : History) (moves : List Move) : Prop :=
  ∀ before m later, moves = before ++ m :: later → rule (h.play before) m

namespace History

variable {h : History} {m : Move} {moves : List Move} {interval : Nat} {timed : Bool}
  {t : TaskId} {x : Task} {s r : ScopeId}

/-- A run can be played in two parts. -/
theorem play_append (h : History) (before later : List Move) :
    h.play (before ++ later) = (h.play before).play later := by
  rw [play, List.foldl_append, play, play]

/-- A run with a move in its middle. -/
theorem history_mid (interval : Nat) (timed : Bool) (before : List Move) (m : Move)
    (later : List Move) : history interval timed (before ++ m :: later) =
      ((history interval timed before).move m).play later := by
  rw [history, play_append]
  rfl

/-- The last move of a run is played after the others. -/
theorem play_concat (h : History) (before : List Move) (m : Move) :
    h.play (before ++ [m]) = (h.play before).move m := by
  rw [play_append]
  rfl

/-- Playing on from a history gives that of the longer run. -/
theorem history_play (interval : Nat) (timed : Bool) (moves later : List Move) :
    (history interval timed moves).play later = history interval timed (moves ++ later) :=
  ((opening interval timed).play_append moves later).symm

/-- The history of a run with one more move. -/
theorem history_concat (interval : Nat) (timed : Bool) (before : List Move) (m : Move) :
    history interval timed (before ++ [m]) = (history interval timed before).move m :=
  play_concat _ _ _

/-- **What every allowed move preserves holds after every run** that keeps to the rule. -/
theorem keeps_induction {rule : History → Move → Prop} {p : History → Prop}
    (hk : Keeps rule h moves) (hp : p h)
    (step : ∀ h m, p h → rule h m → p (h.move m)) : p (h.play moves) := by
  induction moves using List.reverseRecOn with
  | nil => exact hp
  | append_singleton before m ih =>
      rw [play_concat]
      refine step _ m (ih fun b m' l hm => hk b m' (l ++ [m]) ?_) (hk before m [] rfl)
      rw [hm, List.append_assoc]
      rfl

/-- A run keeps to a rule that allows each of its moves at any time. -/
theorem keeps_of_forall {rule : History → Move → Prop} (hr : ∀ m ∈ moves, ∀ h, rule h m) :
    Keeps rule h moves := by
  rintro before m later rfl
  exact hr m (by simp) _

/-- The empty run keeps to every rule. -/
theorem keeps_nil (rule : History → Move → Prop) (h : History) : Keeps rule h [] := by
  rintro (_ | _) _ _ ⟨⟩

/-- A run keeps to a rule if its first move does and the rest of the run does. -/
theorem keeps_cons {rule : History → Move → Prop} (hm : rule h m)
    (hk : Keeps rule (h.move m) moves) : Keeps rule h (m :: moves) := by
  rintro (_ | ⟨first, before⟩) m' later heq
  · obtain ⟨rfl, rfl⟩ := List.cons.inj heq
    exact hm
  · obtain ⟨rfl, htail⟩ := List.cons.inj heq
    exact hk before m' later htail

/-- A run keeps to a rule if its first part does and the rest of it does. -/
theorem keeps_append {rule : History → Move → Prop} {before later : List Move}
    (hb : Keeps rule h before) (hl : Keeps rule (h.play before) later) :
    Keeps rule h (before ++ later) := by
  induction before generalizing h with
  | nil => exact hl
  | cons m before ih =>
      refine keeps_cons (hb [] m before rfl) (ih (fun b m' l heq => ?_) hl)
      exact hb (m :: b) m' l (by rw [heq]; rfl)

/-- **What every move preserves holds after every run.** -/
theorem play_induction {p : History → Prop} (hp : p h) (step : ∀ h m, p h → p (h.move m))
    (moves : List Move) : p (h.play moves) :=
  have hk : Keeps (fun _ _ => True) h moves := fun _ _ _ _ => trivial
  keeps_induction hk hp fun h m hp _ => step h m hp

/-- The database of a history is that after the run. -/
theorem db_play (h : History) (moves : List Move) : (h.play moves).db = (h.db.run moves).1 := by
  induction moves generalizing h with
  | nil => rfl
  | cons m moves ih =>
      rw [play, List.foldl_cons, ← play, ih]
      rfl

/-- Everything that happened in the run is in the history. -/
theorem events_play (h : History) (moves : List Move) :
    (h.play moves).events = h.events ++ (h.db.run moves).2 := by
  induction moves generalizing h with
  | nil => exact (List.append_nil _).symm
  | cons m moves ih =>
      rw [play, List.foldl_cons, ← play, ih, move, List.append_assoc]
      rfl

/-- Whatever happened in the run happened in one of its moves. -/
theorem exists_move_of_mem {e : Event} (he : e ∈ (h.play moves).events) :
    e ∈ h.events ∨ ∃ before m later, moves = before ++ m :: later ∧
      e ∈ ((h.play before).db.move m).2 := by
  induction moves using List.reverseRecOn with
  | nil => exact .inl he
  | append_singleton moves m ih =>
      rw [play_concat] at he
      rcases List.mem_append.mp he with hold | hnew
      · rcases ih hold with hfirst | ⟨before, m', later, rfl, hmem⟩
        · exact .inl hfirst
        · exact .inr ⟨before, m', later ++ [m], by simp, hmem⟩
      · exact .inr ⟨moves, m, [], rfl, hnew⟩

/-- A new database has no tasks. -/
theorem tasks_opening (interval : Nat) (timed : Bool) (t : TaskId) :
    (opening interval timed).db.tasks[t]? = none :=
  List.getElem?_nil

/-- All that happens before the first move is the start of the first scope. -/
theorem events_opening (interval : Nat) (timed : Bool) :
    (opening interval timed).events = [.scope (.started ⟨0⟩)] := by
  change (Scheduler.new interval timed).2.map Event.scope = _
  rw [Scheduler.new_eq]
  rfl

end History

/-! ### What every history preserves -/

/-- **A stage fits an operation.** -/
def Operation.Fits (o : Operation) : Stage → Prop
  | .initializing goal _ _ => o.goal? = goal
  | .awaitingStart work s => ∃ target, o.errand? = some (work, target) ∧ ∀ r ∈ target, s = r
  | .draining _ => o.closes
  | _ => True

/-- Whether a task that closes the scheduler can stand in a stage. -/
def Stage.closing : Stage → Bool
  | .fresh => true
  | .draining _ => true
  | .finished _ => true
  | _ => false

/-- What a gated operation is after is an errand. -/
theorem Operation.errand?_of_goal? {o : Operation} {goal : Work × Option ScopeId}
    (h : o.goal? = some goal) : o.errand? = some goal := by
  unfold errand?
  split
  · simp [goal?] at h
  · simp [goal?] at h
  · exact h

/-- An operation that closes the scheduler waits for no start. -/
theorem Operation.errand?_of_closes {o : Operation} (h : o.closes) : o.errand? = none := by
  cases o <;> simp [closes] at h <;> simp [errand?, goal?]

namespace Database

variable {db db' : Database} {t : TaskId} {x x' : Task} {c : Scheduler.Call} {es : List Event}
  {m : Move}

/-- A task that comes to a scope comes to the one that it was given, or to the current community
scope if it was given none. -/
theorem Seeks.errand {o : Operation} {stage : Stage} {work : Work} {s : ScopeId}
    (h : db.Seeks o stage work s) (hf : o.Fits stage) :
    ∃ target, o.errand? = some (work, target) ∧ s = target.getD db.scheduler.community := by
  cases h with
  | gated => exact ⟨_, Operation.errand?_of_goal? hf, rfl⟩
  | plain _ he => exact ⟨_, he, rfl⟩

/-- **Every step of a task fits its operation.** -/
theorem Stride.fits (h : db.Stride t x c x' es) (hf : x.operation.Fits x.stage) :
    x'.operation.Fits x'.stage := by
  cases h with
  | gates _ hg => exact hg
  | closes hc => exact hc
  | joins hs _ =>
      obtain ⟨target, he, rfl⟩ := hs.errand hf
      refine ⟨target, he, ?_⟩
      rintro r rfl
      rfl
  | drives => exact hf
  | proceeds => exact hf
  | @works _ _ _ stage _ hs =>
      cases stage with
      | queued => trivial
      | preparing => trivial
      | replying => trivial
      | _ => cases hs
  | _ => trivial

/-- **A task that closes the scheduler** takes two steps: it begins, and, when all scopes that it
waits for are over, it ends. -/
theorem Stride.closing (h : db.Stride t x c x' es) (hc : x.operation.closes)
    (hs : x.stage.closing) :
    x.stage = .fresh ∧ c = .beginClose ∧
        x' = { x with stage := .draining db.scheduler.beginClose.2.1 } ∨
      ∃ scopes, x.stage = .draining scopes ∧ db.scheduler.allOver scopes ∧ c = .endClose ∧
        x' = { x with stage := .finished (.ok .done) } := by
  have hseeks : ∀ {stage work s}, stage.closing → ¬ db.Seeks x.operation stage work s := by
    intro stage work s hst hk
    cases hk with
    | gated => cases hst
    | plain _ he => rw [Operation.errand?_of_closes hc] at he; cases he
  have htransacts : ∀ {stage : Stage}, stage.closing → ¬ db.Transacts stage := by
    intro stage hst ht
    cases ht with
    | begun ht => cases stage <;> simp [Stage.closing, Stage.transacting] at hst ht
    | enters => cases hst
  cases h with
  | gates hn _ => exact absurd hc hn
  | watches _ hn => exact absurd hc hn
  | closes _ => exact .inl ⟨rfl, rfl, rfl⟩
  | rejected hk _ => exact absurd hk (hseeks hs)
  | joins hk _ => exact absurd hk (hseeks hs)
  | drives => cases hs
  | proceeds => cases hs
  | asks ha =>
      cases ha with
      | executes ho =>
          cases ho
          cases hc
      | enters => cases hs
      | transacts ht _ => exact absurd ht (htransacts hs)
  | works ht _ => exact absurd ht (htransacts hs)
  | answers => cases hs
  | ends he =>
      cases he with
      | unplanned _ hn => exact absurd hc hn
      | gated => cases hs
      | arrived => cases hs
      | ended => cases hs
      | transacting ht => exact absurd (.begun ht) (htransacts hs)
  | drains ho => exact .inr ⟨_, rfl, ho, rfl, rfl⟩

/-- **A gated operation begins** by waiting for the initializers that there are. -/
theorem Stride.of_fresh {goal : Work × Option ScopeId} (h : db.Stride t x c x' es)
    (hg : x.operation.goal? = some goal) (hs : x.stage = .fresh) :
    x' = { x with stage := .initializing (some goal) 0 db.initializers.length } ∧
      es = [.gated t db.initializers.length] := by
  have herrand := Operation.errand?_of_goal? hg
  have htransacts : ¬ db.Transacts .fresh := by
    rintro (ht | _)
    cases ht
  obtain ⟨o, replies, stage⟩ := x
  cases hs
  cases h with
  | gates _ hgoal =>
      obtain rfl : some goal = _ := hg.symm.trans hgoal
      exact ⟨rfl, rfl⟩
  | watches hn => cases hn.symm.trans herrand
  | closes hc => cases (Operation.errand?_of_closes hc).symm.trans herrand
  | rejected hk => cases hk with | plain hn => cases hn.symm.trans hg
  | joins hk => cases hk with | plain hn => cases hn.symm.trans hg
  | asks ha =>
      cases ha with
      | executes ho =>
          cases ho
          cases hg
      | transacts ht => exact absurd ht htransacts
  | works ht => exact absurd ht htransacts
  | ends he =>
      cases he with
      | unplanned hn => cases hn.symm.trans herrand
      | transacting hb => cases hb

end Database

namespace History

variable {h : History} {m : Move} {moves : List Move} {interval : Nat} {timed : Bool}
  {c : Scheduler.Call} {es : List Event} {db' : Database}

/-- **Where a task stands that closes the scheduler**: as long as it waits, it waits for every user
scope that is not over, and when it is done nothing is outstanding. -/
inductive Closes (h : History) : Stage → Prop
  /-- It has not begun. -/
  | fresh : Closes h .fresh
  /-- It waits. -/
  | draining {scopes : List ScopeId} :
      h.db.scheduler.closed → (∀ s ∈ scopes, s ∈ h.chain) →
        (∀ s ∈ h.users, h.db.scheduler.isOver s ∨ s ∈ scopes) → Closes h (.draining scopes)
  /-- It is done. -/
  | finished :
      h.db.scheduler.closed → (∀ s ∈ h.users, h.db.scheduler.isOver s) →
        h.db.scheduler.pending = [] → Closes h (.finished (.ok .done))

/-- **What every history preserves.** -/
structure Sound (h : History) : Prop where
  /-- The chain is sound. -/
  chain : h.db.scheduler.Sound h.links
  /-- Stages fit the operations. -/
  fits : ∀ (t : TaskId) (x : Task), h.db.tasks[t]? = some x → x.operation.Fits x.stage
  /-- Closing tasks wait for what is outstanding. -/
  closes : ∀ (t : TaskId) (x : Task), h.db.tasks[t]? = some x → x.operation.closes → h.Closes x.stage
  /-- A task that was not let in yet has made no call. -/
  uncalled : ∀ t : TaskId, (∀ x, h.db.tasks[t]? = some x → x.stage.outside) → h.callsOf t = []

/-- A task that was not let in yet has made no call. -/
theorem Sound.callsOf_eq_nil {t : TaskId} {x : Task} (hs : h.Sound) (hx : h.db.tasks[t]? = some x)
    (ho : x.stage.outside) : h.callsOf t = [] :=
  hs.uncalled t fun _ hy => Option.some.inj (hx.symm.trans hy) ▸ ho

/-- A task that closes the scheduler is fresh, waits for scopes or is over. -/
theorem Closes.closing {stage : Stage} (h : h.Closes stage) : stage.closing := by
  cases h <;> rfl

/-- The link of a move is that of its call. -/
theorem Sound.link?_eq (hs : h.Sound) (hh : h.db.Happens m c db' es) :
    link? h.db m = c.link? h.db.scheduler := by
  cases hh with
  | issued => rfl
  | stuck => rfl
  | strode _ _ hst => cases hst <;> rfl
  | served action =>
      cases action with
      | newScope =>
          cases hc : h.db.scheduler.closed with
          | true => simp [link?, Database.act, Action.call, Scheduler.Call.link?,
              Scheduler.newScope_closed hc, hc]
          | false =>
              obtain ⟨hok, hcommunity⟩ := hs.chain.toWoven.newScope_ok hc
              simp [link?, Database.act, Action.call, Scheduler.Call.link?, Scheduler.newLink, hc,
                hok, hcommunity]
      | _ => rfl

/-- Where a task is about to end closing, all user scopes are over. -/
theorem Sound.over_of_endClose (hs : h.Sound) (hh : h.db.Happens m .endClose db' es) :
    ∀ s ∈ h.users, h.db.scheduler.isOver s := by
  intro s hus
  generalize hc : Scheduler.Call.endClose = c at hh
  cases hh with
  | issued => cases hc
  | stuck => cases hc
  | served action => cases action <;> cases hc
  | @strode t x _ _ _ _ _ hx hst =>
      cases hst with
      | drains ho =>
          cases hs.closes t _ hx (hs.fits t _ hx) with
          | draining _ _ hwait =>
              refine (hwait s hus).elim id fun hmem => Scheduler.isOver_of_allOver ho hmem ?_
              exact hs.chain.strung.known s (mem_chainOf_of_mem_usersOf hus)
      | _ => cases hc

/-- **Every move is served by the scheduler**, and the chain grows by the link of the call. -/
theorem Sound.exists_served (hs : h.Sound) (m : Move) :
    ∃ c, h.db.Happens m c (h.move m).db (h.db.move m).2 ∧
      Scheduler.Served h.links h.db.scheduler c (h.move m).db.scheduler ∧
        (h.move m).links = h.links ++ (c.link? h.db.scheduler).toList := by
  obtain ⟨c, hh⟩ := h.db.exists_happens m
  refine ⟨c, hh, ?_, ?_⟩
  · have hsched : (h.move m).db.scheduler = (h.db.scheduler.serve c).1 := hh.scheduler
    rw [hsched]
    refine hs.chain.serve c ?_
    rintro rfl
    exact hs.over_of_endClose hh
  · rw [move, hs.link?_eq hh]

/-- A closed scheduler keeps its chain. -/
theorem links_of_closed {w : Scheduler} {links : Links} (h : w.closed) (c : Scheduler.Call) :
    links ++ (c.link? w).toList = links := by
  cases c <;> simp [Scheduler.Call.link?, h]

/-- What a closing task waits for stays enough, whatever the others do. -/
theorem Closes.move {stage : Stage} (hc : h.Closes stage)
    (hv : Scheduler.Served h.links h.db.scheduler c (h.move m).db.scheduler)
    (hl : (h.move m).links = h.links ++ (c.link? h.db.scheduler).toList) :
    (h.move m).Closes stage := by
  cases hc with
  | fresh => exact .fresh
  | draining hcl hscopes hwait =>
      rw [links_of_closed hcl] at hl
      refine .draining (hv.closed.mpr (.inl hcl)) ?_ ?_
      · rw [chain, hl]
        exact hscopes
      · rw [users, hl]
        exact fun s hs => (hwait s hs).imp_left hv.evolves.isOver
  | finished hcl hover hpending =>
      rw [links_of_closed hcl] at hl
      refine .finished (hv.closed.mpr (.inl hcl)) ?_ ?_
      · rw [users, hl]
        exact fun s hs => hv.evolves.isOver (hover s hs)
      · have hsub := (hv.settled hcl).2
        rw [hpending] at hsub
        exact List.sublist_nil.mp hsub

/-- The calls of a task grow by those of each move. -/
theorem callsOf_move (h : History) (m : Move) (t : TaskId) :
    (h.move m).callsOf t = h.callsOf t ++ ScopedSql.callsOf t (h.db.move m).2 :=
  callsOf_append t _ _

/-- A task that was not let in by a move has made no call. -/
theorem Sound.uncalled_move (hs : h.Sound) (m : Move) (t : TaskId)
    (ho : ∀ x, (h.move m).db.tasks[t]? = some x → x.stage.outside) : (h.move m).callsOf t = [] := by
  obtain ⟨c, hh⟩ := h.db.exists_happens m
  rw [callsOf_move]
  cases hx : h.db.tasks[t]? with
  | none => rw [hs.uncalled t (by simp [hx]), hh.callsOf_none hx, List.append_nil]
  | some x =>
      have hout : x.stage.outside ∧ ScopedSql.callsOf t (h.db.move m).2 = [] := by
        obtain ⟨x', hx', -, ⟨rfl, hcalls⟩ | ⟨-, hst⟩⟩ := hh.exists_task hx
        · exact ⟨ho _ hx', hcalls⟩
        · exact hst.outside (ho x' hx')
      rw [hout.2, List.append_nil]
      exact hs.callsOf_eq_nil hx hout.1

/-- A task that begins to close waits for the pending scopes, which miss no user scope that is not
over. -/
theorem Sound.closes_draining (hs : h.Sound)
    (hv : Scheduler.Served h.links h.db.scheduler .beginClose (h.move m).db.scheduler)
    (hl : (h.move m).links =
      h.links ++ (Scheduler.Call.beginClose.link? h.db.scheduler).toList) :
    (h.move m).Closes (.draining h.db.scheduler.beginClose.2.1) := by
  rw [Scheduler.append_link? .beginClose (by simp)] at hl
  refine .draining (hv.closed.mpr (.inr rfl)) ?_ ?_
  · rw [History.chain, hl]
    intro s hmem
    rcases List.mem_append.mp hmem with hmem | hmem
    · exact mem_chainOf_of_mem_usersOf (hs.chain.pending.subset hmem)
    · obtain rfl := List.mem_singleton.mp hmem
      exact hs.chain.toWoven.current_mem
  · rw [users, hl]
    intro s hus
    rcases hs.chain.listed s hus with hmem | ho
    · exact .inr (List.mem_append_left _ hmem)
    · exact .inl (hv.evolves.isOver ho)

/-- A task that ends closing leaves nothing outstanding. -/
theorem Sound.closes_finished {scopes : List ScopeId} (hs : h.Sound)
    (hcl : h.Closes (.draining scopes))
    (hh : h.db.Happens m .endClose (h.move m).db (h.db.move m).2)
    (hv : Scheduler.Served h.links h.db.scheduler .endClose (h.move m).db.scheduler)
    (hl : (h.move m).links = h.links ++ (Scheduler.Call.endClose.link? h.db.scheduler).toList) :
    (h.move m).Closes (.finished (.ok .done)) := by
  have hover := hs.over_of_endClose hh
  cases hcl with
  | draining hclosed _ _ =>
      rw [links_of_closed hclosed] at hl
      refine .finished (hv.closed.mpr (.inl hclosed)) ?_ ?_
      · rw [users, hl]
        exact fun s hus => hv.evolves.isOver (hover s hus)
      · rw [show (h.move m).db.scheduler = _ from hh.scheduler]
        rfl

/-- Every move leaves a closing task waiting for what is outstanding. -/
theorem Sound.closes_move (hs : h.Sound) (m : Move) (t : TaskId) (x' : Task)
    (hx' : (h.move m).db.tasks[t]? = some x') (hc : x'.operation.closes) :
    (h.move m).Closes x'.stage := by
  obtain ⟨c, hh, hv, hl⟩ := hs.exists_served m
  rcases hh.task hx' with ⟨-, hf, -⟩ | ⟨x, hx, ⟨rfl, -⟩ | ⟨-, hst⟩⟩
  · rw [hf]
    exact .fresh
  · exact (hs.closes t x' hx hc).move hv hl
  · rw [hst.operation] at hc
    have hcl := hs.closes t x hx hc
    rcases hst.closing hc hcl.closing with ⟨-, rfl, rfl⟩ | ⟨scopes, hd, -, rfl, rfl⟩
    · exact hs.closes_draining hv hl
    · rw [hd] at hcl
      exact hs.closes_finished hcl hh hv hl

/-- After every move the stages fit the operations. -/
theorem Sound.fits_move (hs : h.Sound) (m : Move) (t : TaskId) (x' : Task)
    (hx' : (h.move m).db.tasks[t]? = some x') : x'.operation.Fits x'.stage := by
  obtain ⟨c, hh⟩ := h.db.exists_happens m
  rcases hh.task hx' with ⟨-, hf, -⟩ | ⟨x, hx, ⟨rfl, -⟩ | ⟨-, hst⟩⟩
  · rw [hf]
    trivial
  · exact hs.fits t x' hx
  · exact hst.fits (hs.fits t x hx)

/-- **Every move preserves it.** -/
theorem Sound.move (hs : h.Sound) (m : Move) : (h.move m).Sound where
  chain := by
    obtain ⟨c, -, hv, hl⟩ := hs.exists_served m
    rw [hl]
    exact hv.sound
  fits := hs.fits_move m
  closes := hs.closes_move m
  uncalled := hs.uncalled_move m

/-- A chain only grows at its end. -/
theorem exists_links_play (h : History) (later : List Move) :
    ∃ more, (h.play later).links = h.links ++ more := by
  refine play_induction (p := fun h' => ∃ more, h'.links = h.links ++ more)
    ⟨[], (List.append_nil _).symm⟩ (fun h' m ih => ?_) later
  obtain ⟨more, hmore⟩ := ih
  exact ⟨more ++ (link? h'.db m).toList, by rw [move, hmore, List.append_assoc]⟩

/-- What was said to a scope is not taken back. -/
theorem Sound.evolves_play (hs : h.Sound) (later : List Move) :
    h.db.scheduler.Evolves (h.play later).db.scheduler := by
  refine (play_induction (p := fun h' => h'.Sound ∧ h.db.scheduler.Evolves h'.db.scheduler)
    ⟨hs, .refl _⟩ (fun h' m ih => ?_) later).2
  obtain ⟨c, -, hv, -⟩ := ih.1.exists_served m
  exact ⟨ih.1.move m, ih.2.trans hv.evolves⟩

/-- **Every history is sound.** -/
theorem sound_history (interval : Nat) (timed : Bool) (moves : List Move) :
    (history interval timed moves).Sound := by
  refine play_induction ?_ (fun h m hs => hs.move m) moves
  refine ⟨Scheduler.sound_new interval timed, fun t x hx => ?_, fun t x hx => ?_, fun t _ => ?_⟩
  · rw [tasks_opening] at hx
    cases hx
  · rw [tasks_opening] at hx
    cases hx
  · rw [callsOf, events_opening]
    rfl

end History

end ScopedSql
