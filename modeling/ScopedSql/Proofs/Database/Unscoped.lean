import ScopedSql.Proofs.Database.ChainOrder
import ScopedSql.Proofs.Database.Gate

/-!
# Work without a scope

An operation without a scope joins the community scope that is current when it comes to the scheduler,
so it stands in the chain behind the user scopes that were requested before, and before all later ones.
Where no client starts a scope of the chain, it waits for the former and for nothing else
(`unscoped_waits_for_earlier`): that its community scope is superseded, ended early or closed while it
waits does not matter.

Two facts make this. The community scope was started exactly if the earlier user scopes were ended
(`InOrder.isStarted_community_iff`), because the earlier community scopes were ended when they were
superseded. And a task that waits for a scope is let in by its start and fails only by a reply to a call
that it has made (`Follows`).
-/

namespace ScopedSql

namespace History

variable {h : History} {m : Move} {later : List Move} {interval : Nat} {timed : Bool} {t : TaskId}
  {x : Task} {work : Work} {s : ScopeId}

/-- **A community scope was started exactly if the user scopes were ended that had been created when
it was current.** -/
theorem InOrder.isStarted_community_iff (hs : h.Sound) (hi : (h.play later).InOrder) :
    (h.play later).db.scheduler.isStarted h.db.scheduler.community ↔
      ∀ u ∈ h.users, (h.play later).db.scheduler.isEnded u := by
  obtain ⟨more, hmore⟩ := h.exists_links_play later
  obtain ⟨before, hbefore⟩ := List.getLast?_eq_some_iff.mp hs.chain.current
  have hchain : (h.play later).chain =
      before ++ h.db.scheduler.community :: more.flatMap fun l => [l.1, l.2] := by
    rw [chain, hmore, chainOf, List.flatMap_append, ← List.cons_append, ← chainOf, hbefore,
      List.append_assoc, List.singleton_append]
  have hmem : ∀ r, r ∈ chainOf h.links ↔ r ∈ before ∨ r = h.db.scheduler.community := by
    simp [hbefore]
  have hnot : h.db.scheduler.community ∉ before := by
    have hnodup := hs.chain.strung.nodup
    rw [hbefore] at hnodup
    exact fun hin => (List.nodup_append.mp hnodup).2.2 _ hin _ (List.mem_singleton_self _) rfl
  -- the community scopes before this one were ended when they were superseded
  have hcommunity : ∀ r ∈ before, h.db.scheduler.kind? r = some .community →
      (h.play later).db.scheduler.isEnded r := by
    intro r hr hk
    have hin := (hmem r).mpr (.inl hr)
    rcases hs.chain.superseded r hin hk with rfl | he
    · exact absurd hr hnot
    · exact (hs.evolves_play later).ended r (hs.chain.strung.known r hin) he
  rw [hi.started_iff hchain]
  constructor
  · intro he u hu
    refine he u (((hmem u).mp (mem_chainOf_of_mem_usersOf hu)).resolve_right ?_)
    rintro rfl
    exact hs.chain.community_not_mem_users hu
  · intro hu r hr
    rcases mem_chainOf.mp ((hmem r).mpr (.inl hr)) with rfl | ⟨l, hl, rfl | rfl⟩
    · exact hcommunity _ hr hs.chain.root
    · exact hu _ (List.mem_map.mpr ⟨l, hl, rfl⟩)
    · exact hcommunity _ hr (hs.chain.communities l hl)

/-- **A task waits for some user scopes** and for nothing else. -/
structure WaitsFor (h : History) (t : TaskId) (s : ScopeId) (users : List ScopeId)
    (replies : List Reply) : Prop where
  /-- When it calls the engine, all of them were ended. -/
  called : ∀ m call, .called t call ∈ (h.db.move m).2 → ∀ u ∈ users, h.db.scheduler.isEnded u
  /-- As long as one of them was not ended, it has made no call. -/
  uncalled : (∃ u ∈ users, ¬ h.db.scheduler.isEnded u) → h.callsOf t = []
  /-- When all is quiet, it waits for its scope exactly if one of them was not ended. -/
  waits_iff : h.db.Quiet → (h.Waits t s ↔ ∃ u ∈ users, ¬ h.db.scheduler.isEnded u)
  /-- It fails only by a reply to a call that it has made. -/
  fails : ∀ e, h.result? t = some (.error e) → h.callsOf t ≠ [] ∧ Gives replies e

/-- **Work without a scope waits for the transactions that were requested before it**, and for no
others: whatever happens to later scopes and to its own community scope, it is neither let in before
the earlier user scopes were ended nor kept waiting after that, and it is never turned away. And no
gated operation of any run calls the engine without having come to its scope. -/
theorem unscoped_waits_for_earlier {before : List Move}
    (hk : Keeps NoStart (opening interval timed) (before ++ m :: later))
    (hx : (history interval timed before).db.tasks[t]? = some x)
    (he : x.operation.errand? = some (work, none))
    (ha : .approached t s ∈ ((history interval timed before).db.move m).2)
    (hopen : ¬ (history interval timed before).db.scheduler.isEnded
      (history interval timed before).db.scheduler.community) :
    s = (history interval timed before).db.scheduler.community ∧
      (history interval timed (before ++ m :: later)).WaitsFor t s
        (history interval timed before).users x.replies ∧
      ∀ moves, NoneSlipsBy interval timed moves := by
  have hs := sound_history interval timed before
  have hi : ((history interval timed before).play (m :: later)).InOrder := by
    have h := inOrder_history hk
    rwa [history, play_append] at h
  obtain rfl : s = (history interval timed before).db.scheduler.community := hs.eq_target hx he ha
  refine ⟨rfl, ?_, noneSlipsBy interval timed⟩
  have hf := hs.follows hx ha hopen later
  have hiff := InOrder.isStarted_community_iff hs hi
  have hplay : history interval timed (before ++ m :: later) =
      ((history interval timed before).move m).play later := history_mid _ _ _ _ _
  have hsame : (history interval timed before).play (m :: later) =
      ((history interval timed before).move m).play later := rfl
  rw [hsame] at hiff
  rw [hplay]
  have hnot : (∃ u ∈ (history interval timed before).users,
      ¬ (((history interval timed before).move m).play later).db.scheduler.isEnded u) ↔
        ¬ (((history interval timed before).move m).play later).db.scheduler.isStarted
          (history interval timed before).db.scheduler.community := by
    rw [hiff]
    simp
  refine ⟨fun m' call hcall => hiff.mp (hf.isStarted_of_called hcall), fun hno => ?_, fun hq => ?_,
    fun e => hf.fails⟩
  · exact hf.callsOf_nil (hnot.mp hno)
  · rw [hf.waits_iff hq, hnot]

/-- A statement comes while a transaction is open. The next transaction supersedes its community scope,
and the scheduler closes, and still it runs as soon as the first transaction was ended, while the second
one is open. -/
theorem unscoped_waits_for_earlier_superseded :
    (history 0 false ([.act .newScope, .act (.issue (.query .run "x" NameMap.empty none) []), .poll 0] ++
        .poll 0 :: [.act .newScope, .act (.issue .closeScheduler []), .poll 1, .act (.finish ⟨1⟩),
          .poll 0])).WaitsFor 0 ⟨2⟩
        (history 0 false
          [.act .newScope, .act (.issue (.query .run "x" NameMap.empty none) []), .poll 0]).users [] ∧
      (history 0 false ([.act .newScope, .act (.issue (.query .run "x" NameMap.empty none) []), .poll 0] ++
        .poll 0 :: [.act .newScope, .act (.issue .closeScheduler []), .poll 1, .act (.finish ⟨1⟩),
          .poll 0])).callsOf 0 = [.direct .run "x" NameMap.empty] := by
  refine ⟨?_, by decide +kernel⟩
  have hx : (history 0 false [.act .newScope,
      .act (.issue (.query .run "x" NameMap.empty none) []), .poll 0]).db.tasks[0]? =
      some ⟨.query .run "x" NameMap.empty none, [],
        .initializing (some (.query .run "x" NameMap.empty false, none)) 0 0⟩ := by
    with_unfolding_all rfl
  have ha : .approached 0 ⟨2⟩ ∈ ((history 0 false [.act .newScope,
      .act (.issue (.query .run "x" NameMap.empty none) []), .poll 0]).db.move (.poll 0)).2 := by
    with_unfolding_all exact List.mem_singleton_self _
  exact (unscoped_waits_for_earlier (keeps_of_forall (by simp [NoStart])) hx rfl ha
    (by decide +kernel)).2.1

end History

end ScopedSql
