import ScopedSql.Proofs.Database.ChainOrder
import ScopedSql.Proofs.Database.Gate

/-!
# Transactions do not interleave

Where clients leave the starts of the chain to the chain and end a user scope only when the operations
that are bound to it are over, the engine sees one user scope after the other. The reason is in two
facts that every move preserves (`Serial`): an operation that was let in was let in by a scope that was
started, and once a user scope was ended, none of its operations is inside or on the way in. So when an
operation of a later scope calls the engine, all operations of the earlier ones are done.
-/

namespace ScopedSql

/-- The user scope that a gated operation is bound to. -/
def Operation.bound? (o : Operation) : Option ScopeId := o.goal?.bind Prod.snd

/-- The task of an engine call, with the call. -/
def Event.called? : Event → Option (TaskId × Call)
  | .called t call => some (t, call)
  | _ => none

/-- An operation that is bound to a scope comes to that scope. -/
theorem Operation.errand?_of_bound? {o : Operation} {s : ScopeId} (h : o.bound? = some s) :
    ∃ work, o.errand? = some (work, some s) := by
  obtain ⟨⟨work, target⟩, hg, ht⟩ := Option.bind_eq_some_iff.mp h
  obtain rfl : target = some s := ht
  exact ⟨work, Operation.errand?_of_goal? hg⟩

namespace Database

variable {db db' : Database} {t : TaskId} {x x' : Task} {c : Scheduler.Call} {es : List Event}
  {m : Move} {o : Operation} {stage : Stage} {s : ScopeId}

/-- Whom a task waits for that is bound to a scope. -/
theorem bound_of_fits {work : Work} {r : ScopeId} (hb : o.bound? = some s)
    (hf : o.Fits (.awaitingStart work r)) : r = s := by
  obtain ⟨work', he⟩ := Operation.errand?_of_bound? hb
  obtain ⟨target, he', hr⟩ := hf
  obtain ⟨-, rfl⟩ : _ ∧ some s = target := by simpa [he] using he'
  exact hr s rfl

/-- **A task that works at a transaction statement** is inside, or its scope was started and lets it
in. -/
theorem Transacts.bound (h : db.Transacts stage) (hf : o.Fits stage) (hb : o.bound? = some s) :
    stage.inside ∨ ∃ work, stage = .awaitingStart work s ∧ db.scheduler.isStarted s := by
  cases h with
  | begun hi => exact .inl (by cases stage <;> first | rfl | cases hi)
  | enters hs =>
      obtain rfl := bound_of_fits hb hf
      exact .inr ⟨_, rfl, hs⟩

/-- **A task that calls the engine** is inside, or its scope was started and lets it in. -/
theorem Asks.bound {call : Call} {purpose : Purpose} (h : db.Asks o stage call purpose)
    (hf : o.Fits stage) (hb : o.bound? = some s) :
    stage.inside ∨ ∃ work, stage = .awaitingStart work s ∧ db.scheduler.isStarted s := by
  cases h with
  | executes ho =>
      rw [ho] at hb
      cases hb
  | enters hs =>
      obtain rfl := bound_of_fits hb hf
      exact .inr ⟨_, rfl, hs⟩
  | transacts ht => exact ht.bound hf hb

/-- **A task that is inside after a step** was inside, or its scope was started and let it in. -/
theorem Stride.inside (h : db.Stride t x c x' es) (hf : x.operation.Fits x.stage)
    (hb : x.operation.bound? = some s) (hi : x'.stage.inside) :
    x.stage.inside ∨ ∃ work, x.stage = .awaitingStart work s ∧ db.scheduler.isStarted s := by
  cases h with
  | asks ha => exact ha.bound hf hb
  | works ht => exact ht.bound hf hb
  | _ => cases hi

/-- **A task that waits for its scope after a step** has come to it, and it was not ended. -/
theorem Stride.waiting {work : Work} {r : ScopeId} (h : db.Stride t x c x' es)
    (hf : x.operation.Fits x.stage) (hb : x.operation.bound? = some s)
    (hw : x'.stage = .awaitingStart work r) : ¬ db.scheduler.isEnded s := by
  cases h with
  | joins hk he =>
      obtain ⟨target, herr, rfl⟩ := hk.errand hf
      obtain ⟨work', herr'⟩ := Operation.errand?_of_bound? hb
      obtain ⟨-, rfl⟩ : _ ∧ some s = target := by simpa [herr] using herr'.symm
      exact he
  | @works _ _ _ stage' _ hs =>
      obtain rfl : stage' = .awaitingStart work r := hw
      cases hs
  | _ => cases hw

namespace Happens

/-- The engine calls of a move: none, or the one of the task whose step it is. -/
theorem trace (h : db.Happens m c db' es) :
    es.filterMap Event.called? = [] ∨ ∃ t call x purpose,
      es.filterMap Event.called? = [(t, call)] ∧ m = .poll t ∧ c = .nothing ∧
        db.tasks[t]? = some x ∧ db.Asks x.operation x.stage call purpose := by
  rcases List.eq_nil_or_concat (es.filterMap Event.called?) with hnil | ⟨l, ⟨t, call⟩, hl⟩
  · exact .inl hnil
  · have hmem : (t, call) ∈ es.filterMap Event.called? := by simp [hl]
    obtain ⟨e, he, hcall⟩ := List.mem_filterMap.mp hmem
    have hcalled : e = .called t call := by
      cases e <;> simp [Event.called?] at hcall
      rw [hcall.1, hcall.2]
    rw [hcalled] at he
    obtain ⟨hm, hes, hc, x, purpose, hx, ha, -⟩ := h.called he
    exact .inr ⟨t, call, x, purpose, by rw [hes]; rfl, hm, hc, hx, ha⟩

end Happens

end Database

namespace History

variable {h : History} {m : Move} {moves : List Move} {interval : Nat} {timed : Bool}
  {t : TaskId} {x : Task} {s u v : ScopeId}

/-- **The engine trace**: all engine calls with their tasks, in order. -/
def trace (h : History) : List (TaskId × Call) := h.events.filterMap Event.called?

/-- The scope that a task is bound to. -/
def bound? (h : History) (t : TaskId) : Option ScopeId :=
  (h.db.tasks[t]?).bind fun x => x.operation.bound?

/-- **Clients keep to their scopes**: they start no scope of the chain, and end a user scope only when
all operations that are bound to it are over. -/
structure Orderly (h : History) (m : Move) : Prop where
  /-- No scope of the chain is started. -/
  starts : h.NoStart m
  /-- A user scope is ended after its operations. -/
  ends : ∀ s ∈ h.users, m = .act (.finish s) → ¬ h.db.scheduler.isEnded s →
    ∀ t, h.bound? t = some s → (h.result? t).isSome

/-- **What keeps transactions apart.** -/
structure Serial (h : History) : Prop extends h.InOrder where
  /-- Who is inside was let in by a scope that was started. -/
  entered : ∀ (t : TaskId) (x : Task), h.db.tasks[t]? = some x → ∀ s, x.operation.bound? = some s →
    x.stage.inside → h.db.scheduler.isStarted s
  /-- When a user scope was ended, none of its operations is inside or on the way in. -/
  cleared : ∀ s ∈ h.users, h.db.scheduler.isEnded s → ∀ (t : TaskId) (x : Task),
    h.db.tasks[t]? = some x → x.operation.bound? = some s →
      ¬ x.stage.inside ∧ ∀ work r, x.stage ≠ .awaitingStart work r
  /-- Only tasks call the engine. -/
  made : ∀ a ∈ h.trace, ∃ x, h.db.tasks[a.1]? = some x
  /-- A scope whose operations have called the engine was started. -/
  started : ∀ a ∈ h.trace, ∀ s, h.bound? a.1 = some s → h.db.scheduler.isStarted s
  /-- No call for a scope comes after one for a later scope. -/
  ordered : h.trace.Pairwise fun a b => ∀ u v, [u, v].Sublist h.users →
    h.bound? a.1 = some v → h.bound? b.1 ≠ some u

/-- The calls of all tasks grow by those of each move. -/
theorem trace_move (h : History) (m : Move) :
    (h.move m).trace = h.trace ++ (h.db.move m).2.filterMap Event.called? :=
  List.filterMap_append

/-- A task stays bound to its scope. -/
theorem bound?_move (hx : h.db.tasks[t]? = some x) (m : Move) :
    (h.move m).bound? t = h.bound? t := by
  obtain ⟨c, hh⟩ := h.db.exists_happens m
  obtain ⟨x', hx', ho, -⟩ := hh.exists_task hx
  rw [bound?, bound?, show (h.move m).db.tasks[t]? = some x' from hx', hx]
  simp [ho]

/-- A pair of user scopes that does not end with a new one is old. -/
theorem sublist_of_ne {l : List ScopeId} {n : ScopeId} (h : [u, v].Sublist (l ++ [n]))
    (hne : v ≠ n) : [u, v].Sublist l := by
  obtain ⟨l₁, l₂, heq, h₁, h₂⟩ := List.sublist_append_iff.mp h
  rcases List.sublist_singleton.mp h₂ with rfl | rfl
  · rw [heq, List.append_nil]
    exact h₁
  · obtain ⟨-, hvn⟩ : [u] = l₁ ∧ v = n := by
      have hsnoc : [u] ++ [v] = l₁ ++ [n] := heq
      simpa using List.append_inj' hsnoc rfl
    exact absurd hvn hne

/-- A move adds at most one user scope, which was not there before. -/
theorem users_move {c : Scheduler.Call}
    (hl : (h.move m).links = h.links ++ (c.link? h.db.scheduler).toList) :
    (h.move m).users = h.users ∨
      c = .newScope ∧ (h.move m).users = h.users ++ [h.db.scheduler.nextId] := by
  rw [users, hl]
  cases c with
  | newScope =>
      by_cases hc : h.db.scheduler.closed
      · exact .inl (by simp [Scheduler.Call.link?, hc, users])
      · refine .inr ⟨rfl, ?_⟩
        simp [Scheduler.Call.link?, hc, users, usersOf_append, Scheduler.newLink]
  | _ => exact .inl (by simp [Scheduler.Call.link?, users])

/-- **A user scope is ended by name only.** -/
theorem Sound.eq_finish_of_ends {c : Scheduler.Call} (hs : h.Sound) (hus : s ∈ h.users)
    (he : c.Ends h.db.scheduler s) : c = .finish s := by
  have hne : s ≠ h.db.scheduler.community := by
    rintro rfl
    exact hs.chain.community_not_mem_users hus
  cases c with
  | finish r => rw [show s = r from he]
  | newScope => exact absurd he.2 hne
  | beginClose => exact absurd he hne
  | _ => exact he.elim

/-- After a move, too, the scope of a task that is inside was started. -/
theorem Serial.entered_move (hs : h.Serial) (m : Move) (t : TaskId) (x : Task)
    (hx : (h.move m).db.tasks[t]? = some x) (s : ScopeId) (hb : x.operation.bound? = some s)
    (hi : x.stage.inside) : (h.move m).db.scheduler.isStarted s := by
  obtain ⟨c, hh, hv, -⟩ := hs.toSound.exists_served m
  rcases hh.task hx with ⟨-, hf, -⟩ | ⟨y, hy, ⟨rfl, -⟩ | ⟨-, hst⟩⟩
  · rw [hf] at hi
    cases hi
  · exact hv.evolves.started s (hs.entered t x hy s hb hi)
  · rw [hst.operation] at hb
    rcases hst.inside (hs.fits t y hy) hb hi with hin | ⟨work, -, hstarted⟩
    · exact hv.evolves.started s (hs.entered t y hy s hb hin)
    · exact hv.evolves.started s hstarted

/-- A user scope that was ended is not new. -/
theorem Sound.mem_users_of_isEnded (hs : h.Sound) (hus : s ∈ (h.move m).users)
    (he : (h.move m).db.scheduler.isEnded s) : s ∈ h.users := by
  obtain ⟨c, -, hv, hl⟩ := hs.exists_served m
  rcases users_move hl with hu | ⟨-, hu⟩ <;> rw [hu] at hus
  · exact hus
  · refine (List.mem_append.mp hus).resolve_right fun hnew => ?_
    obtain rfl := List.mem_singleton.mp hnew
    have hmem : h.db.scheduler.nextId ∈ (h.move m).users := by rw [hu]; simp
    have hk := (hs.move m).chain.strung.known _ (mem_chainOf_of_mem_usersOf hmem)
    exact hv.created _ hk Scheduler.not_known_nextId he

/-- After an orderly move, too, a user scope that was ended has none of its operations inside or on
the way in. -/
theorem Serial.cleared_move (hs : h.Serial) (ho : h.Orderly m) (s : ScopeId)
    (hus : s ∈ (h.move m).users) (he : (h.move m).db.scheduler.isEnded s) (t : TaskId) (x : Task)
    (hx : (h.move m).db.tasks[t]? = some x) (hb : x.operation.bound? = some s) :
    ¬ x.stage.inside ∧ ∀ work r, x.stage ≠ .awaitingStart work r := by
  obtain ⟨c, hh, hv, -⟩ := hs.toSound.exists_served m
  have hold := hs.toSound.mem_users_of_isEnded hus he
  have hk := hs.chain.strung.known s (mem_chainOf_of_mem_usersOf hold)
  rcases hh.task hx with ⟨-, hf, -⟩ | ⟨y, hy, hcase⟩
  · simp [hf, Stage.inside]
  by_cases hend : h.db.scheduler.isEnded s
  · rcases hcase with ⟨rfl, -⟩ | ⟨-, hst⟩
    · exact hs.cleared s hold hend t x hy hb
    · rw [hst.operation] at hb
      obtain ⟨hout, hnot⟩ := hs.cleared s hold hend t y hy hb
      refine ⟨fun hi => ?_, fun work r hw => hst.waiting (hs.fits t y hy) hb hw hend⟩
      rcases hst.inside (hs.fits t y hy) hb hi with hin | ⟨work, hw, -⟩
      · exact hout hin
      · exact hnot work s hw
  · -- the move is the one that ends the scope, when its operations are over
    have hends := ((hv.ended s hk).mp he).resolve_left hend
    obtain rfl := hs.toSound.eq_finish_of_ends hold hends
    have hm := hh.eq_finish
    rcases hcase with ⟨rfl, -⟩ | ⟨hpoll, -⟩
    · have hres := ho.ends s hold hm hend t (by rw [bound?, hy]; exact hb)
      rw [result?, hy, Option.bind_some, Task.result?] at hres
      split at hres
      · rename_i r hr
        simp [hr, Stage.inside]
      · cases hres
    · rw [hpoll] at hm
      cases hm

/-- After a move, too, only tasks have called the engine. -/
theorem Serial.made_move (hs : h.Serial) (m : Move) (a : TaskId × Call)
    (ha : a ∈ (h.move m).trace) : ∃ x, (h.move m).db.tasks[a.1]? = some x := by
  obtain ⟨c, hh, -, -⟩ := hs.toSound.exists_served m
  have hold : ∃ x, h.db.tasks[a.1]? = some x := by
    rw [trace_move] at ha
    rcases List.mem_append.mp ha with ha | ha
    · exact hs.made a ha
    · rcases hh.trace with hnil | ⟨t, call, x, purpose, hnew, -, -, hx, -⟩
      · rw [hnil] at ha
        cases ha
      · rw [hnew] at ha
        obtain rfl := List.mem_singleton.mp ha
        exact ⟨x, hx⟩
  obtain ⟨x, hx⟩ := hold
  obtain ⟨x', hx', -⟩ := hh.exists_task hx
  exact ⟨x', hx'⟩

/-- When a task calls the engine, its scope was started and, if it is a user scope, not ended. -/
theorem Serial.open_of_asks (hs : h.Serial) (hx : h.db.tasks[t]? = some x) {call : Call}
    {purpose : Purpose} (ha : h.db.Asks x.operation x.stage call purpose)
    (hb : h.bound? t = some s) :
    h.db.scheduler.isStarted s ∧ (s ∈ h.users → ¬ h.db.scheduler.isEnded s) := by
  have hbx : x.operation.bound? = some s := by simpa [bound?, hx] using hb
  refine ⟨?_, fun hus he => ?_⟩
  · rcases ha.bound (hs.fits t x hx) hbx with hi | ⟨-, -, hst⟩
    · exact hs.entered t x hx s hbx hi
    · exact hst
  · obtain ⟨hout, hnot⟩ := hs.cleared s hus he t x hx hbx
    rcases ha.bound (hs.fits t x hx) hbx with hi | ⟨work, hw, -⟩
    · exact hout hi
    · exact hnot work s hw

/-- After a move, too, a scope whose operations have called the engine was started. -/
theorem Serial.started_move (hs : h.Serial) (m : Move) (a : TaskId × Call)
    (ha : a ∈ (h.move m).trace) (s : ScopeId) (hb : (h.move m).bound? a.1 = some s) :
    (h.move m).db.scheduler.isStarted s := by
  obtain ⟨c, hh, hv, -⟩ := hs.toSound.exists_served m
  refine hv.evolves.started s ?_
  rw [trace_move] at ha
  rcases List.mem_append.mp ha with ha | ha
  · obtain ⟨x, hx⟩ := hs.made a ha
    rw [bound?_move hx] at hb
    exact hs.started a ha s hb
  · rcases hh.trace with hnil | ⟨t, call, x, purpose, hnew, -, -, hx, hask⟩
    · rw [hnil] at ha
      cases ha
    · rw [hnew] at ha
      obtain rfl := List.mem_singleton.mp ha
      rw [bound?_move hx] at hb
      exact (hs.open_of_asks hx hask hb).1

/-- **A call that comes last comes for the last scope.** -/
theorem Serial.ordered_move (hs : h.Serial) (m : Move) :
    (h.move m).trace.Pairwise fun a b => ∀ u v, [u, v].Sublist (h.move m).users →
      (h.move m).bound? a.1 = some v → (h.move m).bound? b.1 ≠ some u := by
  obtain ⟨c, hh, hv, hl⟩ := hs.toSound.exists_served m
  rw [trace_move]
  refine List.pairwise_append.mpr ⟨?_, ?_, ?_⟩
  · refine hs.ordered.imp_of_mem fun {a b} ha hb hab u v huv hav hbu => ?_
    obtain ⟨x, hx⟩ := hs.made a ha
    obtain ⟨y, hy⟩ := hs.made b hb
    rw [bound?_move hx] at hav
    rw [bound?_move hy] at hbu
    refine hab u v ?_ hav hbu
    rcases users_move hl with hu | ⟨-, hu⟩ <;> rw [hu] at huv
    · exact huv
    · -- the new user scope was not started, so no call was made for it
      refine sublist_of_ne huv ?_
      rintro rfl
      exact Scheduler.not_known_nextId (Scheduler.known_of_isStarted (hs.started a ha _ hav))
  · rcases hh.trace with hnil | ⟨t, call, x, purpose, hnew, -⟩
    · rw [hnil]
      exact List.Pairwise.nil
    · rw [hnew]
      exact List.pairwise_singleton _ _
  · intro a ha b hb u v huv hav hbu
    rcases hh.trace with hnil | ⟨t, call, y, purpose, hnew, hm, rfl, hy, hask⟩
    · rw [hnil] at hb
      cases hb
    · rw [hnew] at hb
      obtain rfl := List.mem_singleton.mp hb
      obtain ⟨x, hx⟩ := hs.made a ha
      rw [bound?_move hx] at hav
      rw [bound?_move hy] at hbu
      rw [users, hl, Scheduler.append_link? .nothing (by simp)] at huv
      have hu : u ∈ h.users := huv.subset (by simp)
      exact (hs.open_of_asks hy hask hbu).2 hu
        (hs.toInOrder.ended_of_started (huv.trans (usersOf_sublist _)) (hs.started a ha v hav))

/-- **Every move that clients may make keeps transactions apart.** -/
theorem Serial.move (hs : h.Serial) (ho : h.Orderly m) : (h.move m).Serial where
  toInOrder := hs.toInOrder.move ho.starts
  entered := hs.entered_move m
  cleared := hs.cleared_move ho
  made := hs.made_move m
  started := hs.started_move m
  ordered := hs.ordered_move m

/-- **Every orderly run keeps transactions apart.** -/
theorem serial_history (hk : Keeps Orderly (opening interval timed) moves) :
    (history interval timed moves).Serial := by
  refine keeps_induction hk ?_ fun h m hs ho => hs.move ho
  have htrace : (opening interval timed).trace = [] := by
    rw [trace, events_opening]
    rfl
  have hi : (history interval timed []).InOrder := inOrder_history (keeps_nil _ _)
  refine ⟨hi, fun t x hx => ?_, fun s _ _ t x hx => ?_, ?_, ?_, ?_⟩
  · rw [tasks_opening] at hx
    cases hx
  · rw [tasks_opening] at hx
    cases hx
  · simp [htrace]
  · simp [htrace]
  · rw [htrace]
    exact List.Pairwise.nil

/-- Where no element of the one kind comes after one of the other, a list falls into two parts. -/
theorem filter_or_eq_append {α : Type} {l : List α} {p q : α → Bool}
    (hpq : ∀ a, p a → ¬ q a) (h : l.Pairwise fun a b => q a → ¬ p b) :
    l.filter (fun a => p a || q a) = l.filter p ++ l.filter q := by
  induction l with
  | nil => rfl
  | cons a l ih =>
      obtain ⟨ha, hl⟩ := List.pairwise_cons.mp h
      by_cases hp : p a
      · rw [List.filter_cons_of_pos (by simp [hp]), List.filter_cons_of_pos hp,
          List.filter_cons_of_neg (hpq a hp), ih hl, List.cons_append]
      · by_cases hq : q a
        · have hnone : l.filter p = [] := List.filter_eq_nil_iff.mpr fun b hb => ha b hb hq
          rw [List.filter_cons_of_pos (by simp [hq]), List.filter_cons_of_neg hp,
            List.filter_cons_of_pos hq, ih hl, hnone, List.nil_append, List.nil_append]
        · rw [List.filter_cons_of_neg (by simp [hp, hq]), List.filter_cons_of_neg hp,
            List.filter_cons_of_neg hq, ih hl]

/-- A list that is ordered by keys is the concatenation of the parts for each key. -/
theorem filter_eq_flatMap {α : Type} {l : List α} {keys : List ScopeId} {key : α → Option ScopeId}
    (hn : keys.Nodup)
    (h : l.Pairwise fun a b => ∀ u v, [u, v].Sublist keys → key a = some v → key b ≠ some u) :
    l.filter (fun a => keys.any fun u => key a = some u) =
      keys.flatMap fun u => l.filter fun a => key a = some u := by
  induction keys with
  | nil => simp
  | cons u keys ih =>
      obtain ⟨hu, hn'⟩ := List.nodup_cons.mp hn
      have htail := ih hn' (h.imp fun hab u' v' huv => hab u' v' (huv.cons u))
      rw [List.flatMap_cons, ← htail]
      refine filter_or_eq_append (fun a ha hany => ?_) (h.imp fun {a b} hab hany hb => ?_)
      · obtain ⟨v, hv, hav⟩ := List.any_eq_true.mp hany
        have hau : key a = some u := of_decide_eq_true ha
        obtain rfl : u = v := Option.some.inj (hau.symm.trans (of_decide_eq_true hav))
        exact hu hv
      · obtain ⟨v, hv, hav⟩ := List.any_eq_true.mp hany
        exact hab u v ((List.singleton_sublist.mpr hv).cons_cons u) (of_decide_eq_true hav)
          (of_decide_eq_true hb)

/-- **Transactions do not interleave.** If the user scope `u` was created before `v`, no call for `u`
comes after a call for `v`, and the trace of the calls for user scopes is one scope after the other. -/
theorem transactions_do_not_interleave (hk : Keeps Orderly (opening interval timed) moves) :
    (∀ u v, [u, v].Sublist (history interval timed moves).users → ∀ before a later,
      (history interval timed moves).trace = before ++ a :: later →
        (history interval timed moves).bound? a.1 = some v →
          ∀ b ∈ later, (history interval timed moves).bound? b.1 ≠ some u) ∧
      (history interval timed moves).trace.filter (fun a =>
          (history interval timed moves).users.any fun u =>
            (history interval timed moves).bound? a.1 = some u) =
        (history interval timed moves).users.flatMap fun u =>
          (history interval timed moves).trace.filter fun a =>
            (history interval timed moves).bound? a.1 = some u := by
  have hs := serial_history hk
  refine ⟨fun u v huv before a later htrace hav b hb => ?_, ?_⟩
  · have hord := hs.ordered
    rw [htrace] at hord
    obtain ⟨-, hlater, -⟩ := List.pairwise_append.mp hord
    exact (List.pairwise_cons.mp hlater).1 b hb u v huv hav
  · exact filter_eq_flatMap ((usersOf_sublist _).nodup hs.chain.strung.nodup) hs.ordered

/-- A move that neither starts nor ends a scope is one that clients may make. -/
theorem orderly_of_ne (hstart : ∀ s, m ≠ .act (.start s)) (hfinish : ∀ s, m ≠ .act (.finish s)) :
    h.Orderly m :=
  ⟨fun s _ => hstart s, fun s _ hm => absurd hm (hfinish s)⟩

/-- A run of two transactions, the later of which issues its statement first. -/
def crossedRun : List Move :=
  [.act .newScope, .act .newScope,
    .act (.issue (.query .run "b" NameMap.empty (some ⟨3⟩)) []),
    .act (.issue (.query .run "a" NameMap.empty (some ⟨1⟩)) []),
    .poll 0, .poll 0, .poll 0, .poll 1, .poll 1, .poll 1, .poll 1] ++
  .act (.finish ⟨1⟩) :: [.poll 0, .poll 0]

/-- The engine sees the earlier transaction first. -/
theorem transactions_do_not_interleave_crossed :
    (history 0 false crossedRun).trace.filter (fun a =>
        (history 0 false crossedRun).users.any fun u =>
          (history 0 false crossedRun).bound? a.1 = some u) =
      (history 0 false crossedRun).users.flatMap (fun u =>
        (history 0 false crossedRun).trace.filter fun a =>
          (history 0 false crossedRun).bound? a.1 = some u) ∧
      (history 0 false crossedRun).trace =
        [(1, .direct .run "a" NameMap.empty), (0, .direct .run "b" NameMap.empty)] := by
  refine ⟨(transactions_do_not_interleave ?_).2, by decide +kernel⟩
  refine keeps_append (keeps_of_forall ?_) (keeps_cons ⟨by rintro _ _ ⟨⟩, ?_⟩ (keeps_of_forall ?_))
  · intro m hm h
    refine orderly_of_ne ?_ ?_ <;> rintro s rfl <;> simp at hm
  · -- when the earlier scope is ended, its statement is over
    intro s _ hm _ t hb
    obtain rfl : (⟨1⟩ : ScopeId) = s := by simpa using hm
    rcases t with _ | _ | t
    · exact absurd hb (by decide +kernel)
    · decide +kernel
    · have hlen : (play (opening 0 false) [.act .newScope, .act .newScope,
          .act (.issue (.query .run "b" NameMap.empty (some ⟨3⟩)) []),
          .act (.issue (.query .run "a" NameMap.empty (some ⟨1⟩)) []),
          .poll 0, .poll 0, .poll 0, .poll 1, .poll 1, .poll 1, .poll 1]).db.tasks.length = 2 := by
        decide +kernel
      rw [bound?, List.getElem?_eq_none (by omega)] at hb
      cases hb
  · intro m hm h
    refine orderly_of_ne ?_ ?_ <;> rintro s rfl <;> simp at hm

end History

end ScopedSql
