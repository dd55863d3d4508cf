import ScopedSql.Proofs.Database.Unscoped

/-!
# The scope of a read

A table has options for its reads, and one of them is the scope to wait for. A read that is given a
scope of its own comes to that one, else to the one of its table, and else to the current community
scope. A count that is given none is the exception: it does not look at the options of its table, and
comes to the current community scope even if they name a scope (`Request.target?_of_plan`).

`default_scope_of_reads` follows reads through a run. A query of a table that names an open user scope is
let in. A count waits for the end of that very scope (`not_default_scope_of_count`).
-/

namespace ScopedSql

/-- Whether a request reads. -/
def Request.isRead : Request → Bool
  | .select _ _ => true
  | .selectOne _ _ => true
  | .count _ _ => true
  | _ => false

/-- Whether a request is a count that is given no scope. -/
def Request.isBareCount : Request → Bool
  | .count _ none => true
  | _ => false

/-- **The scope of a planned read**: the one that it is given, else that of its table, but none for a
count that is given none. -/
theorem Request.target?_of_plan {table : Table} {r : Request} {plan : Plan} (hr : r.isRead)
    (h : r.plan table = .ok plan) :
    plan.target = if r.isBareCount then none else r.scope.or table.defaults.scope := by
  cases r with
  | select filter options =>
      obtain ⟨c, -, h⟩ := bind_eq_ok_iff.mp h
      obtain ⟨s, -, h⟩ := bind_eq_ok_iff.mp h
      cases h
      rfl
  | selectOne filter options =>
      obtain ⟨c, -, h⟩ := bind_eq_ok_iff.mp h
      obtain ⟨s, -, h⟩ := bind_eq_ok_iff.mp h
      cases h
      rfl
  | count filter scope =>
      obtain ⟨c, -, h⟩ := bind_eq_ok_iff.mp h
      cases h
      cases scope <;> rfl
  | _ => cases hr

/-- What a read is after when it comes to the gate: the scope that it is given or that of its table,
except for a bare count. -/
theorem Operation.target_of_errand? {table : Table} {r : Request} {work : Work}
    {target : Option ScopeId} (hr : r.isRead)
    (h : (Operation.request table r).errand? = some (work, target)) :
    target = if r.isBareCount then none else r.scope.or table.defaults.scope := by
  cases hp : r.plan table with
  | error e => simp [errand?, goal?, hp] at h
  | ok plan =>
      have htarget := Request.target?_of_plan hr hp
      obtain ⟨-, rfl⟩ : _ ∧ plan.target = target := by simpa [errand?, goal?, hp] using h
      exact htarget

namespace History

variable {h : History} {m : Move} {interval : Nat} {timed : Bool} {t : TaskId} {x : Task}
  {s u : ScopeId} {table : Table} {r : Request}

/-- **The scope that a read comes to.** -/
theorem Sound.eq_scope_of_read (hs : h.Sound) (hx : h.db.tasks[t]? = some x)
    (ho : x.operation = .request table r) (hr : r.isRead)
    (ha : .approached t s ∈ (h.db.move m).2) :
    s = (if r.isBareCount then none else r.scope.or table.defaults.scope).getD
      h.db.scheduler.community := by
  obtain ⟨work, target, he, rfl⟩ := hs.exists_errand hx ha
  rw [ho] at he
  rw [Operation.target_of_errand? hr he]

/-- A task that has failed does not wait. -/
theorem Rejected.not_waits (hr : h.Rejected t s) : ¬ h.Waits t u := by
  rintro ⟨x, work, hx, hw⟩
  have hres := hr.1
  simp [result?, hx, Task.result?, hw] at hres

/-- A task that came to an open user scope is let in. -/
theorem Sound.not_waits_of_open (hs : h.Sound) (hu : u ∈ h.users) (hx : h.db.tasks[t]? = some x)
    (ha : .approached t u ∈ (h.db.move m).2) {later : List Move}
    (hstarted : (h.play (m :: later)).db.scheduler.isStarted u)
    (hopen : ¬ (h.play (m :: later)).db.scheduler.isEnded u)
    (hq : (h.play (m :: later)).db.Quiet) : ¬ (h.play (m :: later)).Waits t u := by
  have hk := hs.chain.strung.known u (mem_chainOf_of_mem_usersOf hu)
  have hbefore : ¬ h.db.scheduler.isEnded u := fun he =>
    hopen ((hs.evolves_play (m :: later)).ended u hk he)
  have hf : (h.play (m :: later)).Follows t u x.replies := hs.follows hx ha hbefore later
  exact fun hw => (hf.waits_iff hq).mp hw hstarted

/-- **A task that came to the community scope waits for the user scopes before it.** -/
theorem Sound.waits_of_open (hs : h.Sound) (hu : u ∈ h.users) (hx : h.db.tasks[t]? = some x)
    (ha : .approached t h.db.scheduler.community ∈ (h.db.move m).2)
    (hcommunity : ¬ h.db.scheduler.isEnded h.db.scheduler.community) {later : List Move}
    (hi : (h.play (m :: later)).InOrder)
    (hopen : ¬ (h.play (m :: later)).db.scheduler.isEnded u)
    (hq : (h.play (m :: later)).db.Quiet) :
    (h.play (m :: later)).Waits t h.db.scheduler.community := by
  have hf : (h.play (m :: later)).Follows t h.db.scheduler.community x.replies :=
    hs.follows hx ha hcommunity later
  rw [hf.waits_iff hq, InOrder.isStarted_community_iff hs hi]
  exact fun hall => hopen (hall u hu)

/-- **Which reads take the scope of their table.** A read comes to the scope that it is given, else to
that of its table and else to the current community scope, unless it is a count that is given none and
its table names another scope than the current community scope. While a user scope is open that the
table names, a read that is given no scope waits, when all is quiet, exactly if it is a count, and then
until that scope is ended; only if the community scope was ended before it came there, it has failed. -/
theorem default_scope_of_reads {before later : List Move}
    (hx : (history interval timed before).db.tasks[t]? = some x)
    (ho : x.operation = .request table r) (hr : r.isRead)
    (ha : .approached t s ∈ ((history interval timed before).db.move m).2) :
    (s = (r.scope.or table.defaults.scope).getD (history interval timed before).db.scheduler.community ↔
        ¬ ((∃ filter, r = .count filter none) ∧ ∃ d, table.defaults.scope = some d ∧
          d ≠ (history interval timed before).db.scheduler.community)) ∧
      ((∃ filter, r = .count filter none) → s = (history interval timed before).db.scheduler.community) ∧
      (Keeps NoStart (opening interval timed) (before ++ m :: later) →
        ∀ u ∈ (history interval timed before).users, table.defaults.scope = some u → r.scope = none →
          (history interval timed (before ++ m :: later)).db.scheduler.isStarted u →
            ¬ (history interval timed (before ++ m :: later)).db.scheduler.isEnded u →
              (history interval timed (before ++ m :: later)).db.Quiet →
                ((history interval timed (before ++ m :: later)).Waits t s ↔
                  (∃ filter, r = .count filter none) ∧
                    ¬ (history interval timed before).db.scheduler.isEnded
                      (history interval timed before).db.scheduler.community)) := by
  have hs := sound_history interval timed before
  have hscope := hs.eq_scope_of_read hx ho hr ha
  have hbare : r.isBareCount ↔ ∃ filter, r = .count filter none := by
    cases r with
    | count filter scope => cases scope <;> simp [Request.isBareCount]
    | _ => simp [Request.isBareCount]
  rw [← hbare]
  cases hcount : r.isBareCount with
  | false =>
      rw [hcount, if_neg Bool.false_ne_true] at hscope
      refine ⟨iff_of_true hscope (by simp), by simp, ?_⟩
      intro hk u hu hd hnone hstarted hopen hq
      obtain rfl : s = u := by simpa [hd, hnone] using hscope
      rw [history, play_append] at hstarted hopen hq ⊢
      exact iff_of_false (hs.not_waits_of_open hu hx ha hstarted hopen hq) (by simp)
  | true =>
      rw [hcount, if_pos rfl, Option.getD_none] at hscope
      subst hscope
      refine ⟨?_, fun _ => rfl, ?_⟩
      · have hnone : r.scope = none := by
          obtain ⟨filter, rfl⟩ := hbare.mp hcount
          rfl
        cases hd : table.defaults.scope with
        | none => simp [hnone]
        | some d => simp [hnone, eq_comm]
      · intro hk u hu hd hnone hstarted hopen hq
        have hi := inOrder_history hk
        rw [history, play_append] at hstarted hopen hq hi ⊢
        by_cases hended : (history interval timed before).db.scheduler.isEnded
            (history interval timed before).db.scheduler.community
        · have hrejected := hs.rejected ha hended later
          exact iff_of_false hrejected.not_waits (by simp [hended])
        · exact iff_of_true (hs.waits_of_open hu hx ha hended hi hopen hq) ⟨rfl, hended⟩

/-- A transaction is open whose scope a table names, and a count of that table comes. -/
def countInTransaction : List Move :=
  [.act .newScope, .act (.issue (.request ⟨"t", { scope := some ⟨1⟩ }⟩ (.count none none)) []), .poll 0]

/-- The count comes to the current community scope, not to that of its table. -/
theorem approached_countInTransaction :
    .approached 0 ⟨2⟩ ∈ ((history 0 false countInTransaction).db.move (.poll 0)).2 := by
  with_unfolding_all exact List.mem_singleton_self _

/-- After that no task can take a step. -/
theorem quiet_countInTransaction :
    (history 0 false (countInTransaction ++ [.poll 0])).db.Quiet := by
  rintro (_ | t)
  · with_unfolding_all rfl
  · with_unfolding_all rfl

/-- The count comes to the community scope behind the transaction and waits there. -/
theorem default_scope_of_reads_count :
    (history 0 false (countInTransaction ++ .poll 0 :: [])).Waits 0 ⟨2⟩ := by
  have hx : (history 0 false countInTransaction).db.tasks[0]? =
      some ⟨.request ⟨"t", { scope := some ⟨1⟩ }⟩ (.count none none), [],
        .initializing (some (.query .get "SELECT COUNT(*) AS count FROM t" NameMap.empty true, none))
          0 0⟩ := by
    with_unfolding_all rfl
  obtain ⟨-, -, hwaits⟩ := default_scope_of_reads hx rfl rfl approached_countInTransaction
  have hk : Keeps NoStart (opening 0 false) (countInTransaction ++ .poll 0 :: []) :=
    keeps_of_forall (by simp [countInTransaction, NoStart])
  exact (hwaits hk ⟨1⟩ (by decide +kernel) rfl rfl (by decide +kernel) (by decide +kernel)
    quiet_countInTransaction).mpr ⟨⟨none, rfl⟩, by decide +kernel⟩

/-- **The scope of its table is not that of every read**: the count comes to another one, and waits there
while the scope of its table is open and no task can take a step. -/
theorem not_default_scope_of_count :
    (¬ ∀ before m t s x table r, (history 0 false before).db.tasks[t]? = some x →
        x.operation = .request table r → r.isRead →
          .approached t s ∈ ((history 0 false before).db.move m).2 →
            s = (r.scope.or table.defaults.scope).getD
              (history 0 false before).db.scheduler.community) ∧
      (history 0 false (countInTransaction ++ [.poll 0])).db.scheduler.isStarted ⟨1⟩ ∧
      ¬ (history 0 false (countInTransaction ++ [.poll 0])).db.scheduler.isEnded ⟨1⟩ ∧
      (history 0 false (countInTransaction ++ [.poll 0])).db.Quiet ∧
      (history 0 false (countInTransaction ++ [.poll 0])).Waits 0 ⟨2⟩ := by
  refine ⟨fun hall => ?_, by decide +kernel, by decide +kernel, quiet_countInTransaction, ?_⟩
  · have h := hall countInTransaction (.poll 0) 0 ⟨2⟩ _ _ _ (by with_unfolding_all rfl) rfl rfl
      approached_countInTransaction
    exact absurd h (by decide +kernel)
  · exact ⟨⟨.request ⟨"t", { scope := some ⟨1⟩ }⟩ (.count none none), [], .awaitingStart
      (.query .get "SELECT COUNT(*) AS count FROM t" NameMap.empty true) ⟨2⟩⟩, _,
      by with_unfolding_all rfl, rfl⟩

end History

end ScopedSql
