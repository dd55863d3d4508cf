import ScopedSql.Proofs.Database.History

/-!
# Following a task

A task that comes to a scope that was not ended waits there for the start, is let in by it, and is over
in the end. `Follows` goes after it through every move. As long as its scope was not started it makes
no call, in a quiet state it waits exactly if its scope was not started, and it fails only by a reply
to a call that it has made: once a task waits for a scope, nothing turns it away.
-/

namespace ScopedSql

/-- A reply gives a fault: it is the fault, or it has no number to count with. -/
def Reply.Gives (reply : Reply) (e : Fault) : Prop :=
  reply.result = .error e ∨ ∃ response, reply.result = .ok response ∧
    readCount response.row = .error e

/-- Some replies give a fault; a reply that is missing is a plain success. -/
def Gives (replies : List Reply) (e : Fault) : Prop :=
  ∃ reply, (reply ∈ replies ∨ reply = {}) ∧ reply.Gives e

/-- **Where a task stands that was let in**, when the engine has some replies for it and it has made
some calls: if it waits for a reply or has failed, it has made a call, and if it has failed, one of the
replies gave the fault. -/
inductive Stage.Within (replies : List Reply) (calls : List Call) : Stage → Prop
  | queued {verb : TransactionVerb} : Within replies calls (.queued verb)
  | preparing {verb : TransactionVerb} {rest : List TransactionVerb} :
      Within replies calls (.preparing verb rest)
  | replying {reply : Reply} {purpose : Purpose} :
      calls ≠ [] → reply ∈ replies ∨ reply = {} → Within replies calls (.replying reply purpose)
  | finished {r : Except Fault Outcome} :
      (∀ e, r = .error e → calls ≠ [] ∧ Gives replies e) → Within replies calls (.finished r)

namespace Database

variable {db u : Database} {t : TaskId} {x : Task} {stage : Stage} {replies : List Reply}
  {calls : List Call} {r : Database × List Event}

/-- A task was let in, has made some calls, and the engine has had its replies for it from some list. -/
def LetIn (db : Database) (t : TaskId) (replies : List Reply) (calls : List Call) : Prop :=
  ∃ x, db.tasks[t]? = some x ∧ x.replies ⊆ replies ∧ x.stage.Within replies calls

/-- A task is let in when its stage is one of those within. -/
theorem letIn_setStage (hx : u.tasks[t]? = some x) (hr : x.replies ⊆ replies)
    (hs : stage.Within replies calls) : (u.setStage t stage).LetIn t replies calls := by
  refine ⟨{ x with stage }, ?_, hr, hs⟩
  rw [setStage, List.getElem?_modify_eq, hx]
  rfl

/-- A task that calls the engine waits for the next of its replies. -/
theorem letIn_call (hx : u.tasks[t]? = some x) (hr : x.replies ⊆ replies) (call : Call)
    (purpose : Purpose) : (u.call t call purpose).1.LetIn t replies
      (calls ++ callsOf t (u.call t call purpose).2) := by
  refine ⟨{ x with replies := x.replies.tail, stage := .replying (x.replies.head?.getD {}) purpose },
    ?_, fun reply hmem => hr (List.mem_of_mem_tail hmem), .replying ?_ ?_⟩
  · rw [Database.call, List.getElem?_modify_eq, hx]
    rfl
  · simp [Database.call, callsOf, Event.callOf?]
  · cases hrep : x.replies with
    | nil => exact .inr rfl
    | cons reply rest => exact .inl (hr (by rw [hrep]; exact List.mem_cons_self))

/-- A task that its scope lets in is let in. -/
theorem letIn_enter (hx : db.tasks[t]? = some x) (hr : x.replies ⊆ replies) (work : Work)
    (s : ScopeId) :
    (db.enter t work s).1.LetIn t replies (calls ++ callsOf t (db.enter t work s).2) := by
  cases work with
  | arrive => exact letIn_setStage hx hr (.finished (by simp))
  | announce => exact letIn_setStage hx hr (.finished (by simp))
  | query verb sql bindings counting => exact letIn_call hx hr _ _
  | prepare sql => exact letIn_call hx hr _ _
  | transact verb =>
      rw [enter]
      unfold enterTransaction
      split
      · exact letIn_call hx hr _ _
      · split
        · exact letIn_setStage hx hr .preparing
        · exact letIn_setStage hx hr .queued

/-- **A task fails only by a reply.** -/
theorem letIn_receive {reply : Reply} (hx : db.tasks[t]? = some x) (hr : x.replies ⊆ replies)
    (hc : calls ≠ []) (hm : reply ∈ replies ∨ reply = {}) (purpose : Purpose) :
    (db.receive t reply.result purpose).1.LetIn t replies calls := by
  cases purpose with
  | answer verb counting =>
      refine letIn_setStage hx hr (.finished fun e he => ⟨hc, reply, hm, ?_⟩)
      cases hres : reply.result with
      | error e' =>
          rw [hres] at he
          obtain rfl : e' = e := Except.error.inj he
          exact .inl hres
      | ok response =>
          have hread : Plan.read verb counting response = .error e := by rw [← he, hres]; rfl
          refine .inr ⟨response, hres, ?_⟩
          unfold Plan.read at hread
          split at hread
          · exact hread
          · cases hread
  | handle sql =>
      refine letIn_setStage hx hr (.finished fun e he => ⟨hc, reply, hm, .inl ?_⟩)
      cases hres : reply.result <;> simp [hres, Except.map] at he ⊢
      exact he
  | transacted =>
      refine letIn_setStage hx hr (.finished fun e he => ⟨hc, reply, hm, .inl ?_⟩)
      cases hres : reply.result <;> simp [hres, Except.map] at he ⊢
      exact he
  | part verb rest =>
      cases hres : reply.result with
      | error e' =>
          refine letIn_setStage (u := db.handOver) hx hr
            (.finished fun e he => ⟨hc, reply, hm, .inl ?_⟩)
          rw [hres, Except.error.inj he]
      | ok response => exact letIn_setStage hx hr .preparing

/-- **A step of a task that was let in**, or that waits to be, leaves it let in. -/
theorem letIn_poll? (h : db.poll? t = some r) (hx : db.tasks[t]? = some x)
    (hr : x.replies ⊆ replies)
    (hs : x.stage.Within replies calls ∨ ∃ work s, x.stage = .awaitingStart work s) :
    r.1.LetIn t replies (calls ++ callsOf t r.2) := by
  obtain ⟨y, hy, h⟩ := Option.bind_eq_some_iff.mp h
  obtain rfl : x = y := by simpa [hx] using hy
  obtain ⟨o, left, stage⟩ := x
  rcases hs with hs | ⟨work, s, rfl⟩
  · cases hs with
    | queued =>
        simp only [pollStage?] at h
        split at h
        · cases h
          exact letIn_call hx hr _ _
        · split at h
          · cases h
            exact letIn_setStage hx hr .preparing
          · cases h
    | @preparing verb rest =>
        cases rest with
        | nil =>
            cases h
            exact letIn_call (u := db.settleTransaction) hx hr _ _
        | cons next rest =>
            cases h
            exact letIn_call hx hr _ _
    | replying hc hm =>
        simp only [pollStage?] at h
        split at h
        · cases h
          exact letIn_receive hx hr (List.append_ne_nil_of_left_ne_nil hc _) hm _
        · cases h
    | finished => cases h
  · simp only [pollStage?] at h
    split at h
    · cases h
      exact letIn_enter hx hr work s
    · cases h

/-- A task that waits for a scope takes a step only when the scope was started. -/
theorem isStarted_of_poll? {work : Work} {s : ScopeId} (h : db.poll? t = some r)
    (hx : db.tasks[t]? = some x) (hs : x.stage = .awaitingStart work s) :
    db.scheduler.isStarted s := by
  obtain ⟨y, hy, h⟩ := Option.bind_eq_some_iff.mp h
  obtain rfl : x = y := by simpa [hx] using hy
  simp only [pollStage?, hs] at h
  split at h
  case isTrue hst => exact hst
  case isFalse => cases h

/-- A task that waits for a scope that was started can take a step. -/
theorem poll?_of_isStarted {o : Operation} {work : Work} {s : ScopeId}
    (hx : db.tasks[t]? = some ⟨o, replies, .awaitingStart work s⟩) (hs : db.scheduler.isStarted s) :
    db.poll? t ≠ none := by
  simp [poll?, hx, pollStage?, hs]

end Database

namespace History

variable {h : History} {m : Move} {t : TaskId} {x y : Task} {s : ScopeId} {replies : List Reply}

/-- A task does what it was issued for, from beginning to end. -/
theorem operation_play (hy : h.db.tasks[t]? = some y) (later : List Move)
    (hx : (h.play later).db.tasks[t]? = some x) : x.operation = y.operation := by
  have hkept := play_induction
    (p := fun h => ∃ x, h.db.tasks[t]? = some x ∧ x.operation = y.operation) ⟨y, hy, rfl⟩
    (fun h m ⟨x, hx, ho⟩ => ?_) later
  · obtain ⟨x', hx', ho⟩ := hkept
    rw [Option.some.inj (hx.symm.trans hx'), ho]
  · obtain ⟨c, hh⟩ := h.db.exists_happens m
    obtain ⟨x', hx', ho', -⟩ := hh.exists_task hx
    exact ⟨x', hx', ho'.trans ho⟩

/-- A task that comes to a scope has made no call. -/
theorem Sound.callsOf_approached (hs : h.Sound) (ha : .approached t s ∈ (h.db.move m).2) :
    (h.move m).callsOf t = [] := by
  obtain ⟨c, hh, -, -⟩ := hs.exists_served m
  obtain ⟨-, x, work, hx, hk, hcalls, -⟩ := hh.approached ha
  rw [callsOf_move, hcalls, List.append_nil]
  exact hs.callsOf_eq_nil hx hk.outside

/-- **A task that has come to a scope**: it waits for the start, or it was let in. -/
inductive Follows (h : History) (t : TaskId) (s : ScopeId) (replies : List Reply) : Prop
  /-- It waits for the start. -/
  | waits {x : Task} {work : Work} :
      h.db.tasks[t]? = some x → x.stage = .awaitingStart work s → x.replies = replies →
        h.callsOf t = [] → Follows h t s replies
  /-- It was let in. -/
  | entered :
      h.db.scheduler.isStarted s → h.db.LetIn t replies (h.callsOf t) → Follows h t s replies

/-- **Every move keeps after the task.** -/
theorem Follows.move (hf : h.Follows t s replies) (hs : h.Sound) (m : Move) :
    (h.move m).Follows t s replies := by
  obtain ⟨c, hh, hv, -⟩ := hs.exists_served m
  have hstarted := hv.evolves.started s
  -- the task has taken the step of the move, or it stands where it stood
  have hstep : ∀ {x}, h.db.tasks[t]? = some x →
      (∃ r, h.db.poll? t = some r ∧ (h.move m).db = r.1 ∧
          (h.move m).callsOf t = h.callsOf t ++ ScopedSql.callsOf t r.2) ∨
        (h.move m).db.tasks[t]? = some x ∧ (h.move m).callsOf t = h.callsOf t := by
    intro x hx
    obtain ⟨x', hx', -, ⟨rfl, hno⟩ | ⟨rfl, -⟩⟩ := hh.exists_task hx
    · exact .inr ⟨hx', by rw [callsOf_move, hno, List.append_nil]⟩
    · cases hp : h.db.poll? t with
      | none =>
          refine .inr ⟨?_, ?_⟩
          · simp [History.move, Database.move, hp, hx]
          · simp [callsOf_move, Database.move, hp, ScopedSql.callsOf]
      | some r =>
          refine .inl ⟨r, rfl, ?_, ?_⟩
          · simp [History.move, Database.move, hp]
          · simp [callsOf_move, Database.move, hp]
  cases hf with
  | waits hx hw hr hnone =>
      rcases hstep hx with ⟨r, hp, hdb, hcalls⟩ | ⟨hx', hcalls⟩
      · refine .entered (hstarted (Database.isStarted_of_poll? hp hx hw)) ?_
        rw [hdb, hcalls]
        exact Database.letIn_poll? hp hx (by rw [hr]; exact List.Subset.refl _) (.inr ⟨_, _, hw⟩)
      · exact .waits hx' hw hr (hcalls.trans hnone)
  | entered hopen hin =>
      obtain ⟨x, hx, hr, hw⟩ := hin
      refine .entered (hstarted hopen) ?_
      rcases hstep hx with ⟨r, hp, hdb, hcalls⟩ | ⟨hx', hcalls⟩
      · rw [hdb, hcalls]
        exact Database.letIn_poll? hp hx hr (.inl hw)
      · rw [hcalls]
        exact ⟨x, hx', hr, hw⟩

/-- **A task that comes to a scope that was not ended** waits for its start. -/
theorem Sound.follows (hs : h.Sound) (hx : h.db.tasks[t]? = some x)
    (ha : .approached t s ∈ (h.db.move m).2) (he : ¬ h.db.scheduler.isEnded s)
    (later : List Move) : ((h.move m).play later).Follows t s x.replies := by
  obtain ⟨c, hh, -, -⟩ := hs.exists_served m
  obtain ⟨-, y, work, hy, -, -, ⟨hyes, -⟩ | ⟨-, hx'⟩⟩ := hh.approached ha
  · exact absurd hyes he
  · obtain rfl : x = y := by simpa [hx] using hy
    refine (play_induction (p := fun h => h.Sound ∧ h.Follows t s x.replies)
      ⟨hs.move m, .waits hx' rfl rfl (hs.callsOf_approached ha)⟩ (fun h m ih => ?_) later).2
    exact ⟨ih.1.move m, ih.2.move ih.1 m⟩

/-- As long as its scope was not started, the task has made no call. -/
theorem Follows.callsOf_nil (hf : h.Follows t s replies) (hs : ¬ h.db.scheduler.isStarted s) :
    h.callsOf t = [] := by
  cases hf with
  | waits _ _ _ hnone => exact hnone
  | entered hopen => exact absurd hopen hs

/-- A task that calls the engine was let in by a scope that was started. -/
theorem Follows.isStarted_of_called {call : Call} (hf : h.Follows t s replies)
    (hc : .called t call ∈ (h.db.move m).2) : h.db.scheduler.isStarted s := by
  cases hf with
  | waits hx hw _ _ =>
      obtain ⟨c, hh⟩ := h.db.exists_happens m
      obtain ⟨rfl, hes, -⟩ := hh.called hc
      cases hp : h.db.poll? t with
      | none => simp [Database.move, hp] at hes
      | some r => exact Database.isStarted_of_poll? hp hx hw
  | entered hopen => exact hopen

/-- When all is quiet, the task waits exactly if its scope was not started. -/
theorem Follows.waits_iff (hf : h.Follows t s replies) (hq : h.db.Quiet) :
    h.Waits t s ↔ ¬ h.db.scheduler.isStarted s := by
  cases hf with
  | @waits x work hx hw _ _ =>
      refine ⟨fun _ hopen => ?_, fun _ => ⟨x, work, hx, hw⟩⟩
      obtain ⟨o, left, stage⟩ := x
      obtain rfl : stage = .awaitingStart work s := hw
      exact Database.poll?_of_isStarted hx hopen (hq t)
  | entered hopen hin =>
      refine ⟨fun hwait => ?_, fun hno => absurd hopen hno⟩
      obtain ⟨x, work, hx, hw⟩ := hwait
      obtain ⟨y, hy, -, hin⟩ := hin
      obtain rfl : x = y := by simpa [hx] using hy
      rw [hw] at hin
      cases hin

/-- **The task fails only by a reply** to a call that it has made. -/
theorem Follows.fails {e : Fault} (hf : h.Follows t s replies) (hr : h.result? t = some (.error e)) :
    h.callsOf t ≠ [] ∧ Gives replies e := by
  cases hf with
  | waits hx hw _ _ => simp [result?, hx, Task.result?, hw] at hr
  | entered _ hin =>
      obtain ⟨⟨o, left, stage⟩, hx, -, hin⟩ := hin
      have hstage : (Task.mk o left stage).result? = some (.error e) := by simpa [result?, hx] using hr
      cases hin with
      | finished hfails => exact hfails e (Option.some.inj hstage)
      | _ => cases hstage

end History

end ScopedSql
