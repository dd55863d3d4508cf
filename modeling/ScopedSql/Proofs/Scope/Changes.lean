import ScopedSql.Proofs.Scope.Chain

/-!
# Ends, starts and new scopes

A change that shows in no scope of the chain leaves the chain as it is (`Sound.agree`,
`Sound.create`). An end and a start set a signal and let it take its effect (`Woven.finish_cases`,
`Woven.start_cases`), so they keep the chain woven; `Finished` says what else an end changes.
-/

namespace ScopedSql

namespace Scheduler

variable {w v : Scheduler} {s r : ScopeId} {links : Links} {rest : List ScopeId}

/-! ### Changes that leave the chain as it is -/

/-- Where two schedulers agree, the same scopes are strung together. -/
theorem Agree.strung (ha : w.Agree v) (h : w.Strung rest) : v.Strung rest where
  nodup := h.nodup
  known r hr := ha.known.mpr (h.known r hr)
  linked := ha.isChain_linkedTo h.linked
  bare r hr := by rw [ha.hooks]; exact h.bare r hr

/-- Where two schedulers agree, the same chain is woven into them. -/
theorem Woven.agree (h : w.Woven links) (ha : w.Agree v) (hc : v.community = w.community)
    (hp : v.pending = w.pending) : v.Woven links where
  strung := ha.strung h.strung
  loose s hs := by rw [ha.hooks]; exact h.loose s hs
  first := by rw [ha.started]; exact h.first
  current := by rw [hc]; exact h.current
  root := by rw [ha.kind]; exact h.root
  users l hl := by rw [ha.kind]; exact h.users l hl
  communities l hl := by rw [ha.kind]; exact h.communities l hl
  pending := by rw [hp]; exact h.pending
  listed s hs := by rw [hp, ha.isOver]; exact h.listed s hs

/-- When new scopes are refused from now on, no scope changes. -/
theorem agree_closing : w.Agree { w with closed := true } := .of_scopes rfl

/-- The chain stays woven when the scheduler closes. -/
theorem Woven.closing (h : w.Woven links) : Woven { w with closed := true } links :=
  h.agree agree_closing rfl rfl

/-- Where two schedulers agree, their chain is sound in both. -/
theorem Sound.agree (h : w.Sound links) (ha : w.Agree v) (hc : v.community = w.community)
    (hp : v.pending = w.pending) (hcl : v.closed = w.closed) : v.Sound links where
  toWoven := h.toWoven.agree ha hc hp
  superseded s hs hk := by
    rw [ha.kind] at hk
    rw [hc, ha.ended]
    exact h.superseded s hs hk
  closed hv := by
    rw [hcl] at hv
    rw [hc, ha.ended]
    exact h.closed hv

/-- A scope that is created stands outside the chain. -/
theorem Woven.nextId_not_mem (h : w.Woven links) : w.nextId ∉ chainOf links :=
  fun hs => not_known_nextId (h.strung.known _ hs)

/-- The chain stays woven when a scope of its own is created. -/
theorem Woven.create (h : w.Woven links) (kind : ScopeKind) (interval : Nat) :
    (w.create kind interval).1.Woven links := by
  have hne : ∀ {s}, s ∈ chainOf links → s ≠ w.nextId := by
    rintro s hs rfl
    exact h.nextId_not_mem hs
  have hkind : ∀ {s}, s ∈ chainOf links → (w.create kind interval).1.kind? s = w.kind? s :=
    fun hs => by rw [kind?_create, if_neg (hne hs)]
  have hover : ∀ {s}, s ∈ chainOf links →
      ((w.create kind interval).1.isOver s ↔ w.isOver s) := by
    intro s hs
    rw [isOver_iff, isOver_iff, isStarted_create, isEnded_create]
    simp [hne hs]
  refine {
    strung := {
      nodup := h.strung.nodup
      known := fun r hr => known_create.mpr (.inl (h.strung.known r hr))
      linked := h.strung.linked.imp_of_mem_imp fun a b ha _ hab =>
        hab.frame (hkind ha) (hover ha) hooksOf_create (by rw [isStarted_create]; exact id)
      bare := fun r hr => by rw [hooksOf_create]; exact h.strung.bare r hr }
    loose := fun s hs => by rw [hooksOf_create]; exact h.loose s hs
    first := by rw [isStarted_create]; exact h.first
    current := h.current
    root := by rw [hkind (by simp [chainOf])]; exact h.root
    users := fun l hl => ?_
    communities := fun l hl => ?_
    pending := h.pending
    listed := fun s hs => ?_ }
  · rw [hkind (mem_chainOf.mpr (.inr ⟨l, hl, .inl rfl⟩)), h.users l hl]
  · rw [hkind (mem_chainOf.mpr (.inr ⟨l, hl, .inr rfl⟩)), h.communities l hl]
  · rw [hover (mem_chainOf_of_mem_usersOf hs)]
    exact h.listed s hs

/-- The chain stays sound when a scope of its own is created. -/
theorem Sound.create (h : w.Sound links) (kind : ScopeKind) (interval : Nat) :
    (w.create kind interval).1.Sound links where
  toWoven := h.toWoven.create kind interval
  superseded s hs hk := by
    have hne : s ≠ w.nextId := by rintro rfl; exact h.nextId_not_mem hs
    rw [kind?_create, if_neg hne] at hk
    rw [isEnded_create]
    exact (h.superseded s hs hk).imp_right fun he => ⟨he, hne⟩
  closed hc := by
    have hne : w.community ≠ w.nextId := fun e => h.nextId_not_mem (e ▸ h.current_mem)
    exact isEnded_create.mpr ⟨h.closed hc, hne⟩

/-! ### Ends and starts -/

/-- An end is the run of one command. -/
theorem finish_eq (w : Scheduler) (s : ScopeId) :
    w.finish s = w.run [.command (.finish s)] := rfl

/-- **An end** comes too late, or sets the signal, which takes its effect. -/
theorem Woven.finish_cases (h : w.Woven links) (s : ScopeId) :
    w.isEnded s ∧ w.finish s = (w, []) ∨
      ¬ w.isEnded s ∧ ∃ v events, Settles (chainOf links) (w.markEnded s) s v events ∧
        w.finish s = (v, .ended s :: events) := by
  by_cases he : w.isEnded s
  · refine .inl ⟨he, ?_⟩
    rw [finish_eq, run_finish_again he, run_nil]
  · have hm := marks_markEnded he
    obtain ⟨v, events, hset, hrun⟩ := h.exists_settles hm []
    refine .inr ⟨he, v, events, hset, ?_⟩
    have ho : (w.markEnded s).isOver s ↔ w.isStarted s := by
      simp [isOver_iff]
    rw [finish_eq, run_finish he]
    simp only [ho, run_nil] at hrun
    rw [hrun]
    simp [emit]

/-- **A start** is refused, or goes nowhere, or sets the signal, which takes its effect. -/
theorem Woven.start_cases (h : w.Woven links) (s : ScopeId) :
    w.isStarted s ∧ w.start s = .error (.alreadyStarted s.number) ∨
      ¬ w.Known s ∧ w.start s = .ok (w, []) ∨
      w.Known s ∧ ¬ w.isStarted s ∧ ∃ v events,
        Settles (chainOf links) (w.markStarted s) s v events ∧
          w.start s = .ok (v, .started s :: events) := by
  by_cases hk : w.Known s
  · obtain ⟨x, hx⟩ := known_iff.mp hk
    have hxs : w.isStarted s = x.started := by simp [isStarted, hx]
    by_cases hs : w.isStarted s
    · refine .inl ⟨hs, ?_⟩
      rw [hxs] at hs
      simp [start, hx, hs]
    · have hm := marks_markStarted hk hs
      obtain ⟨v, events, hset, hrun⟩ := h.exists_settles hm []
      refine .inr (.inr ⟨hk, hs, v, events, hset, ?_⟩)
      have ho : (w.markStarted s).isOver s ↔ w.isEnded s := by
        simp [isOver_iff, hk]
      have hperform : w.perform [.start s] = (v, .started s :: events) := by
        rw [perform, List.map_singleton, run_start hk hs]
        simp only [ho, run_nil] at hrun
        rw [hrun]
        simp [emit]
      rw [hxs] at hs
      simp [start, hx, hs, hperform]
  · refine .inr (.inl ⟨hk, ?_⟩)
    have hx : w.scope? s = none := by simpa [known_iff, Option.eq_none_iff_forall_ne_some] using hk
    simp [start, hx]

/-- **What an end changes.** -/
structure Finished (links : Links) (w : Scheduler) (s : ScopeId) (v : Scheduler) : Prop where
  /-- The chain stays woven. -/
  woven : v.Woven links
  /-- Kinds stay. -/
  kind : ∀ r, v.kind? r = w.kind? r
  /-- No start is taken back. -/
  started : ∀ r, w.isStarted r → v.isStarted r
  /-- Only this scope is ended. -/
  ended : ∀ r, v.isEnded r ↔ w.isEnded r ∨ r = s
  /-- The current community scope stays. -/
  community : v.community = w.community
  /-- Nothing is closed or opened again. -/
  closed : v.closed = w.closed
  /-- No one gets or loses the scheduler. -/
  owned : v.owned = w.owned
  /-- The list of pending scopes does not grow. -/
  pending : v.pending.Sublist w.pending

/-- **An end keeps the chain woven**, and changes nothing else than it should. -/
theorem Woven.finish (h : w.Woven links) (s : ScopeId) :
    Finished links w s (w.finish s).1 := by
  rcases h.finish_cases s with ⟨he, heq⟩ | ⟨he, v, events, hset, heq⟩
  · rw [heq]
    refine ⟨h, fun _ => rfl, fun _ => id, fun r => ⟨.inl, ?_⟩, rfl, rfl, rfl, .refl _⟩
    rintro (hr | rfl)
    · exact hr
    · exact he
  · rw [heq]
    have hm := marks_markEnded he
    obtain ⟨hcommunity, hclosed, howned⟩ := hset.settings
    exact {
      woven := h.settles hm rfl rfl hset
      kind := fun r => by rw [hset.kind?, hm.kind]
      started := fun r hr => hset.evolves.started r (hm.started r hr)
      ended := fun r => by rw [hset.isEnded, isEnded_markEnded]
      community := hcommunity
      closed := hclosed
      owned := howned
      pending := hset.pending_sublist }

/-- An end creates no scope. -/
theorem Finished.known (h : Finished links w s v) : v.Known r ↔ w.Known r := by
  rw [known_iff_kind?, h.kind, known_iff_kind?]

/-- A scheduler evolves with an end. -/
theorem Finished.evolves (h : Finished links w s v) : w.Evolves v where
  kind r _ := h.kind r
  started := h.started
  ended r _ hr := (h.ended r).mpr (.inl hr)

/-- **An end keeps the chain sound.** -/
theorem Finished.sound (h : Finished links w s v) (hw : w.Sound links) : v.Sound links where
  toWoven := h.woven
  superseded r hr hk := by
    rw [h.kind] at hk
    rw [h.community, h.ended]
    exact (hw.superseded r hr hk).imp_right .inl
  closed hc := by
    rw [h.closed] at hc
    rw [h.community, h.ended]
    exact .inl (hw.closed hc)

/-- An end keeps the order of the chain, and nothing is refused. -/
theorem Woven.finish_inOrder (h : w.Woven links) (hi : (chainOf links).IsChain w.InOrder)
    (s : ScopeId) :
    (chainOf links).IsChain (w.finish s).1.InOrder ∧ ∀ r, .refused r ∉ (w.finish s).2 := by
  rcases h.finish_cases s with ⟨he, heq⟩ | ⟨he, v, events, hset, heq⟩
  · rw [heq]
    exact ⟨hi, fun _ => List.not_mem_nil⟩
  · rw [heq]
    obtain ⟨hchain, hevents⟩ := hset.inOrder (marks_markEnded he) h.strung.nodup hi
      fun r _ hr => by rw [isStarted_markEnded] at hr; exact hr
    exact ⟨hchain, fun r hr => by simp [hevents r] at hr⟩

end Scheduler

end ScopedSql
