import ScopedSql.Proofs.Scope.Calls

/-!
# Who hands over to whom

Clients may start scopes of the chain themselves, before their turn. Then the chain is not in order,
and its own start of such a scope is refused when the turn comes. `Handover` says of two neighbours of
the chain and of one call what is true in any case: the chain tries to start the second one exactly in
the call in which the first one is over, once, and is refused exactly if the second one was started
before. `Sound.serve_handover` says it of every call and of all neighbours.
-/

namespace ScopedSql

/-- Whether an event is the beginning of an attempt of the chain to start a scope. -/
def ScopeEvent.tries (r : ScopeId) : ScopeEvent → Bool
  | .fired _ label => label == r.number
  | _ => false

/-- **How often the chain tries to start a scope.** -/
def attempts (r : ScopeId) (events : List ScopeEvent) : Nat :=
  events.countP (ScopeEvent.tries r)

@[simp] theorem attempts_append (r : ScopeId) (a b : List ScopeEvent) :
    attempts r (a ++ b) = attempts r a + attempts r b :=
  List.countP_append

/-- Scopes are told apart by their numbers. -/
theorem ScopeId.number_inj {r s : ScopeId} : r.number = s.number ↔ r = s := by
  obtain ⟨i⟩ := r
  obtain ⟨j⟩ := s
  simp [number]

/-- **Nothing is heard of a scope**: the chain neither tries to start it nor is refused. -/
def Silent (r : ScopeId) (events : List ScopeEvent) : Prop :=
  ∀ e ∈ events, ¬ e.tries r ∧ e ≠ .refused r

section Silent

variable {r : ScopeId} {events : List ScopeEvent}

@[simp] theorem silent_nil : Silent r [] := fun _ he => absurd he List.not_mem_nil

@[simp] theorem silent_cons {e : ScopeEvent} :
    Silent r (e :: events) ↔ (¬ e.tries r ∧ e ≠ .refused r) ∧ Silent r events :=
  List.forall_mem_cons

@[simp] theorem silent_append {a b : List ScopeEvent} :
    Silent r (a ++ b) ↔ Silent r a ∧ Silent r b :=
  List.forall_mem_append

/-- The chain does not try to start a scope that nothing is heard of. -/
theorem Silent.attempts_eq (h : Silent r events) : attempts r events = 0 :=
  List.countP_eq_zero.mpr fun e he => (h e he).1

/-- The chain is not refused by a scope that nothing is heard of. -/
theorem Silent.refused_not_mem (h : Silent r events) : .refused r ∉ events :=
  fun he => (h _ he).2 rfl

end Silent

namespace Scheduler

variable {w m v u : Scheduler} {s r p : ScopeId} {links : Links} {rest : List ScopeId}
  {events : List ScopeEvent} {c : Call}

/-! ### Two neighbours and one call -/

/-- **The turn is due**: a scope is over after a call, and was not before it, or the next scope is
new. -/
def Due (w v : Scheduler) (p r : ScopeId) : Prop :=
  v.isOver p ∧ (¬ w.isOver p ∨ ¬ w.Known r)

/-- **What a call does between two neighbours** of the chain. -/
inductive Handover (c : Call) (w v : Scheduler) (events : List ScopeEvent) (p r : ScopeId) : Prop
  /-- The turn is not due. Only a client can start the second scope. -/
  | kept : ¬ Due w v p r → Silent r events →
      (v.isStarted r ↔ w.isStarted r ∨ c = .start r) → Handover c w v events p r
  /-- The turn is due and starts the second scope. -/
  | opened {before later : List ScopeEvent} : Due w v p r → ¬ w.isStarted r → v.isStarted r →
      events = before ++ [.fired p r.number, .started r] ++ later → Silent r before →
        Silent r later → Handover c w v events p r
  /-- The turn is due, and comes too late. -/
  | refused {before later : List ScopeEvent} : Due w v p r → w.isStarted r → v.isStarted r →
      events = before ++ [.fired p r.number, .refused r] ++ later → Silent r before →
        Silent r later → Handover c w v events p r

/-- A turn is not due where the next scope is known and no scope has become over. -/
theorem not_due (hk : w.Known r) (ho : v.isOver p → w.isOver p) : ¬ Due w v p r :=
  fun hd => hd.2.elim (fun h => h (ho hd.1)) fun h => h hk

/-- A handover that ends a call is one of the call, where the scheduler before it and the one after
it cannot be told apart by the two scopes. -/
theorem Handover.frame {w' v' : Scheduler} (front : List ScopeEvent)
    (h : Handover c w v events p r) (hd : Due w' v' p r ↔ Due w v p r)
    (hw : w'.isStarted r ↔ w.isStarted r) (hv : v'.isStarted r ↔ v.isStarted r)
    (hf : Silent r front) : Handover c w' v' (front ++ events) p r := by
  cases h with
  | kept hn hsil hs =>
      refine .kept (mt hd.mp hn) (silent_append.mpr ⟨hf, hsil⟩) ?_
      rw [hv, hw, hs]
  | @opened before later hdue hs hst heq hb hl =>
      refine .opened (hd.mpr hdue) (mt hw.mp hs) (hv.mpr hst) ?_ (silent_append.mpr ⟨hf, hb⟩) hl
      rw [heq, List.append_assoc, List.append_assoc, List.append_assoc]
  | @refused before later hdue hs hst heq hb hl =>
      refine .refused (hd.mpr hdue) (hw.mpr hs) (hv.mpr hst) ?_ (silent_append.mpr ⟨hf, hb⟩) hl
      rw [heq, List.append_assoc, List.append_assoc, List.append_assoc]

/-- **The chain tries once if the turn is due**, and not at all otherwise. -/
theorem Handover.attempts_eq [Decidable (Due w v p r)] (h : Handover c w v events p r) :
    attempts r events = if Due w v p r then 1 else 0 := by
  cases h with
  | kept hn hsil _ => rw [if_neg hn, hsil.attempts_eq]
  | opened hd _ _ heq hb hl =>
      rw [if_pos hd, heq, attempts_append, attempts_append, hb.attempts_eq, hl.attempts_eq]
      simp [attempts, ScopeEvent.tries]
  | refused hd _ _ heq hb hl =>
      rw [if_pos hd, heq, attempts_append, attempts_append, hb.attempts_eq, hl.attempts_eq]
      simp [attempts, ScopeEvent.tries]

/-- **The chain is refused** exactly if the turn is due and comes too late. -/
theorem Handover.refused_iff (h : Handover c w v events p r) :
    .refused r ∈ events ↔ Due w v p r ∧ w.isStarted r := by
  cases h with
  | kept hn hsil _ => exact ⟨fun he => absurd he hsil.refused_not_mem, fun hd => absurd hd.1 hn⟩
  | opened _ hs _ heq hb hl => simp [heq, hb.refused_not_mem, hl.refused_not_mem, hs]
  | refused hd hs _ heq _ _ => simp [heq, hd, hs]

/-- What the chain starts is started, and so is what a client starts. -/
theorem Handover.isStarted_iff (h : Handover c w v events p r) :
    v.isStarted r ↔ w.isStarted r ∨ c = .start r ∨ Due w v p r := by
  cases h with
  | kept hn _ hs => simp [hs, hn]
  | opened hd _ hst _ _ _ => simp [hst, hd]
  | refused hd _ hst _ _ _ => simp [hst, hd]

/-- **An attempt begins with the hook of the first scope**, and its outcome follows at once. -/
theorem Handover.outcome (h : Handover c w v events p r) (hd : Due w v p r) :
    (¬ w.isStarted r ∧ [.fired p r.number, .started r] <:+: events) ∨
      (w.isStarted r ∧ [.fired p r.number, .refused r] <:+: events) := by
  cases h with
  | kept hn => exact absurd hd hn
  | opened _ hs _ heq _ _ => exact .inl ⟨hs, _, _, heq.symm⟩
  | refused _ hs _ heq _ _ => exact .inr ⟨hs, _, _, heq.symm⟩

/-! ### A turn -/

/-- A turn is silent about scopes that are not in its list. -/
theorem Passes.silent (h : Passes w s rest v events) (hr : r ∉ rest) : Silent r events := by
  induction h with
  | last => exact silent_nil
  | refused =>
      have hne := List.ne_of_not_mem_cons hr
      simp [ScopeEvent.tries, ScopeId.number_inj, hne.symm]
  | opened =>
      have hne := List.ne_of_not_mem_cons hr
      simp [ScopeEvent.tries, ScopeId.number_inj, hne.symm]
  | onward _ _ _ _ ih =>
      have hne := List.ne_of_not_mem_cons hr
      simp [ScopeEvent.tries, ScopeId.number_inj, hne.symm, ih (List.not_mem_of_not_mem_cons hr)]

/-- Where no scope has become over and nothing is tried, nothing is due. -/
theorem isChain_kept {l : List ScopeId} (hk : ∀ r ∈ l.tail, w.Known r)
    (ho : ∀ p ∈ l, v.isOver p → w.isOver p)
    (hs : ∀ r ∈ l.tail, v.isStarted r ↔ w.isStarted r ∨ c = .start r)
    (he : ∀ r ∈ l.tail, Silent r events) : l.IsChain (Handover c w v events) :=
  (List.isChain_isInfix l).imp_of_mem_tail_imp fun p r hp hr _ =>
    .kept (not_due (hk r hr) (ho p hp)) (he r hr) (hs r hr)

/-- **A call has not come to some scopes yet**: no signal of theirs was set, and it is not the start
of one of them. -/
structure Untouched (c : Call) (w m : Scheduler) (rest : List ScopeId) : Prop where
  /-- The scopes were there before the call. -/
  known : ∀ r ∈ rest, w.Known r
  /-- None of them has become over. -/
  isOver : ∀ r ∈ rest, m.isOver r ↔ w.isOver r
  /-- None of them was started. -/
  isStarted : ∀ r ∈ rest, m.isStarted r ↔ w.isStarted r
  /-- None of them is about to be started by the call itself. -/
  unasked : ∀ r ∈ rest, c ≠ .start r

/-- Where two schedulers agree, a call has come to the same scopes of both. -/
theorem Untouched.agree (h : Untouched c w m rest) (ha : m.Agree v) : Untouched c w v rest where
  known := h.known
  isOver r hr := by rw [ha.isOver]; exact h.isOver r hr
  isStarted r hr := by rw [ha.started]; exact h.isStarted r hr
  unasked := h.unasked

/-- A call that has not come to some scopes has not come to the last ones of them. -/
theorem Untouched.tail (h : Untouched c w m (s :: rest)) : Untouched c w m rest where
  known r hr := h.known r (List.mem_cons_of_mem _ hr)
  isOver r hr := h.isOver r (List.mem_cons_of_mem _ hr)
  isStarted r hr := h.isStarted r (List.mem_cons_of_mem _ hr)
  unasked r hr := h.unasked r (List.mem_cons_of_mem _ hr)

/-- A start of another scope does not touch them. -/
theorem Untouched.markStarted (h : Untouched c w m rest) (hs : s ∉ rest) :
    Untouched c w (m.markStarted s) rest := by
  have hne : ∀ r ∈ rest, r ≠ s := by
    rintro r hr rfl
    exact hs hr
  refine ⟨h.known, fun r hr => ?_, fun r hr => ?_, h.unasked⟩
  · rw [isOver_markStarted, h.isOver r hr]
    simp [hne r hr]
  · rw [isStarted_markStarted, h.isStarted r hr]
    simp [hne r hr]

/-- Behind a scope that has not become over, the untouched scopes keep their turns. -/
theorem Untouched.handover (h : Untouched c w m rest) (ho : m.isOver s → w.isOver s)
    (he : ∀ r ∈ rest, Silent r events) : (s :: rest).IsChain (Handover c w m events) := by
  refine isChain_kept h.known ?_ (fun r hr => ?_) he
  · rintro p hp hover
    rcases List.mem_cons.mp hp with rfl | hp
    · exact ho hover
    · exact (h.isOver p hp).mp hover
  · have hr' : r ∈ rest := hr
    rw [h.isStarted r hr']
    simp [h.unasked r hr']

/-- The attempt to start one scope is silent about others. -/
theorem silent_attempt {e : ScopeEvent} (hs : s ∉ rest) (he : e = .started s ∨ e = .refused s) :
    ∀ r ∈ rest, Silent r [.fired p s.number, e] := by
  intro r hr
  have hne : s ≠ r := by rintro rfl; exact hs hr
  rcases he with rfl | rfl <;> simp [ScopeEvent.tries, ScopeId.number_inj, hne]

/-- **A turn is handed over along its list**, seen from a scheduler in which the scope that passes it
was not over yet. -/
theorem Passes.handover (h : Passes m s rest v events) (hn : (s :: rest).Nodup)
    (hw : ¬ w.isOver s) (hm : m.isOver s) (hu : Untouched c w m rest) :
    (s :: rest).IsChain (Handover c w v events) := by
  induction h with
  | last => exact List.isChain_singleton _
  | @refused m s t rest hst =>
      obtain ⟨htn, -⟩ := List.nodup_cons.mp (List.nodup_cons.mp hn).2
      have hwt : w.isStarted t := (hu.isStarted t List.mem_cons_self).mp hst
      have hover : (m.leave s).isOver s := by rw [agree_leave.isOver]; exact hm
      have hstarted : (m.leave s).isStarted t := by rw [agree_leave.started]; exact hst
      refine List.isChain_cons_cons.mpr ⟨?_, ?_⟩
      · exact .refused ⟨hover, .inl hw⟩ hwt hstarted (List.append_nil _).symm silent_nil silent_nil
      · refine (hu.tail.agree agree_leave).handover ?_ (silent_attempt htn (.inr rfl))
        rw [agree_leave.isOver]
        exact (hu.isOver t List.mem_cons_self).mp
  | @opened m s t rest hst he =>
      obtain ⟨htn, -⟩ := List.nodup_cons.mp (List.nodup_cons.mp hn).2
      have hwt : ¬ w.isStarted t := mt (hu.isStarted t List.mem_cons_self).mpr hst
      have hover : ((m.markStarted t).leave s).isOver s := by
        rw [agree_leave.isOver]; exact evolves_markStarted.isOver hm
      have hstarted : ((m.markStarted t).leave s).isStarted t := by
        rw [agree_leave.started, isStarted_markStarted]
        exact .inr ⟨rfl, known_of_not_isEnded he⟩
      refine List.isChain_cons_cons.mpr ⟨?_, ?_⟩
      · exact .opened ⟨hover, .inl hw⟩ hwt hstarted (List.append_nil _).symm silent_nil silent_nil
      · refine ((hu.tail.markStarted htn).agree agree_leave).handover ?_ (silent_attempt htn (.inl rfl))
        rw [agree_leave.isOver, Scheduler.isOver_iff, isEnded_markStarted]
        exact fun h => absurd h.2 he
  | @onward m v s t rest events hkt hst he hp ih =>
      obtain ⟨htn, -⟩ := List.nodup_cons.mp (List.nodup_cons.mp hn).2
      have hwt : ¬ w.isStarted t := mt (hu.isStarted t List.mem_cons_self).mpr hst
      have hover : (v.leave s).isOver s := by
        rw [agree_leave.isOver]; exact hp.evolves.isOver (evolves_markStarted.isOver hm)
      have hstarted : (v.leave s).isStarted t := by
        rw [agree_leave.started]
        exact hp.isStarted (isStarted_markStarted.mpr (.inr ⟨rfl, hkt⟩))
      -- the turn goes on from `t`, which was not over before the call either
      have hrest : (t :: rest).IsChain (Handover c w v events) :=
        ih (List.nodup_cons.mp hn).2 (fun h => hwt (Scheduler.isOver_iff.mp h).1)
          (isOver_markStarted_self hkt he) (hu.tail.markStarted htn)
      refine List.isChain_cons_cons.mpr ⟨?_, ?_⟩
      · exact .opened ⟨hover, .inl hw⟩ hwt hstarted rfl silent_nil (hp.silent htn)
      · refine hrest.imp_of_mem_tail_imp fun p r _ hr hpr => ?_
        refine hpr.frame _ ?_ .rfl ?_ (silent_attempt htn (.inl rfl) r hr)
        · rw [Due, Due, agree_leave.isOver]
        · rw [agree_leave.started]

/-! ### Signals -/

/-- A signal is silent about all scopes that have no scope before them. -/
theorem Settles.silent {chain : List ScopeId} (h : Settles chain m s v events)
    (hr : r ∉ chain.tail) : Silent r events := by
  cases h with
  | waits => exact silent_nil
  | passes _ hb hp =>
      refine hp.silent fun hmem => hr ?_
      rcases hb with ⟨-, rfl⟩ | ⟨before, rfl⟩
      · cases hmem
      · cases before <;> simp [hmem]

/-- **A signal hands turns over along the chain.** -/
theorem Settles.handover {chain : List ScopeId} (h : Settles chain m s v events)
    (hm : w.Marks m s) (hn : chain.Nodup) (hk : ∀ r ∈ chain, w.Known r)
    (hs : ∀ r ∈ chain, m.isStarted r ↔ w.isStarted r ∨ c = .start r)
    (hc : ∀ r, r ≠ s → c ≠ .start r) : chain.IsChain (Handover c w v events) := by
  cases h with
  | waits ho =>
      refine isChain_kept (fun r hr => hk r (List.mem_of_mem_tail hr)) (fun p _ hp => ?_)
        (fun r hr => hs r (List.mem_of_mem_tail hr)) fun _ _ => silent_nil
      exact (hm.isOver p (by rintro rfl; exact ho hp)).mp hp
  | @passes rest v events ho hb hp =>
      rcases hb with ⟨hsc, rfl⟩ | ⟨before, rfl⟩
      · cases hp
        refine isChain_kept (fun r hr => hk r (List.mem_of_mem_tail hr)) (fun p hp hover => ?_)
          (fun r hr => hs r (List.mem_of_mem_tail hr)) fun _ _ => silent_nil
        exact (hm.isOver p (by rintro rfl; exact hsc hp)).mp hover
      · obtain ⟨-, hn', hdisj⟩ := List.nodup_append.mp hn
        -- before `s` nothing happens, and the turn runs along the scopes from `s` on
        have hkeep : ∀ p ∈ before, ∀ r ∈ before ++ [s], Handover c w v events p r := by
          intro p hpb r hr
          have hps : p ≠ s := fun e => hdisj p hpb s List.mem_cons_self e
          have hpr : p ∉ rest := fun e => hdisj p hpb p (List.mem_cons_of_mem _ e) rfl
          have hrr : r ∉ rest := by
            rcases List.mem_append.mp hr with hr | hr
            · exact fun e => hdisj r hr r (List.mem_cons_of_mem _ e) rfl
            · obtain rfl := List.mem_singleton.mp hr
              exact (List.nodup_cons.mp hn').1
          have hmem : r ∈ before ++ s :: rest := by
            rcases List.mem_append.mp hr with hr | hr <;> simp_all
          refine .kept (not_due (hk r hmem) fun hover => ?_) (hp.silent hrr) ?_
          · exact (hm.isOver p hps).mp ((hp.isOver_iff hpr).mp hover)
          · rw [hp.isStarted_iff hrr, hs r hmem]
        refine List.isChain_append.mpr ⟨?_, ?_, ?_⟩
        · exact (List.isChain_isInfix before).imp_of_mem_imp fun p r hpb hr _ =>
            hkeep p hpb r (List.mem_append_left _ hr)
        · have hne : ∀ r ∈ rest, r ≠ s := by
            rintro r hr rfl
            exact (List.nodup_cons.mp hn').1 hr
          refine hp.handover hn' hm.before ho ⟨fun r hr => ?_, fun r hr => ?_, fun r hr => ?_, ?_⟩
          · exact hk r (by simp [hr])
          · exact hm.isOver r (hne r hr)
          · rw [hs r (by simp [hr])]
            simp [hc r (hne r hr)]
          · exact fun r hr => hc r (hne r hr)
        · intro p hpb r hr
          obtain rfl : s = r := by simpa using hr
          exact hkeep p (List.mem_of_getLast? hpb) s (by simp)

/-! ### Calls -/

/-- A call that makes no scope of the chain over hands over no turn. -/
theorem Woven.handover_kept (h : w.Woven links) (ho : ∀ p ∈ chainOf links, v.isOver p → w.isOver p)
    (hs : ∀ r ∈ chainOf links, v.isStarted r ↔ w.isStarted r ∨ c = .start r)
    (he : ∀ r, Silent r events) : (chainOf links).IsChain (Handover c w v events) :=
  isChain_kept (fun r hr => h.strung.known r (List.mem_of_mem_tail hr)) ho
    (fun r hr => hs r (List.mem_of_mem_tail hr)) fun r _ => he r

/-- A call that only shows in alarms and settings hands over no turn. -/
theorem Woven.handover_agree (h : w.Woven links) (ha : w.Agree v)
    (hc : ∀ r, c = .start r → w.isStarted r ∨ ¬ w.Known r) (he : ∀ r, Silent r events) :
    (chainOf links).IsChain (Handover c w v events) := by
  refine h.handover_kept (fun p _ hp => by rwa [ha.isOver] at hp) (fun r hr => ?_) he
  rw [ha.started]
  refine ⟨.inl, fun hs => hs.elim id fun hcr => (hc r hcr).resolve_right ?_⟩
  exact fun hk => hk (h.strung.known r hr)

/-- **An end hands the turn over** along the chain. -/
theorem Woven.finish_handover (h : w.Woven links) (s : ScopeId) (hc : ∀ r, c ≠ .start r) :
    (chainOf links).IsChain (Handover c w (w.finish s).1 (w.finish s).2) := by
  rcases h.finish_cases s with ⟨-, heq⟩ | ⟨he, v, events, hset, heq⟩
  · rw [heq]
    exact h.handover_agree (.of_scopes rfl) (fun r hr => absurd hr (hc r)) fun _ => silent_nil
  · rw [heq]
    refine (hset.handover (marks_markEnded he) h.strung.nodup h.strung.known (fun r _ => ?_)
      fun r _ => hc r).imp fun p r hpr => ?_
    · rw [isStarted_markEnded]
      simp [hc r]
    · exact hpr.frame [.ended s] .rfl .rfl .rfl (by simp [ScopeEvent.tries])

/-- **A start hands the turn over** along the chain. -/
theorem Woven.start_handover (h : w.Woven links) (s : ScopeId) :
    (chainOf links).IsChain
      (Handover (.start s) w (w.serve (.start s)).1 (w.serve (.start s)).2) := by
  rcases h.start_cases s with ⟨hs, heq⟩ | ⟨hk, heq⟩ | ⟨hk, hs, v, events, hset, heq⟩
  · rw [serve, heq]
    refine h.handover_agree (.of_scopes rfl) ?_ fun _ => silent_nil
    rintro r ⟨rfl⟩
    exact .inl hs
  · rw [serve, heq]
    refine h.handover_agree (.of_scopes rfl) ?_ fun _ => silent_nil
    rintro r ⟨rfl⟩
    exact .inr hk
  · rw [serve, heq]
    have hchain : (chainOf links).IsChain (Handover (.start s) w v events) := by
      refine hset.handover (marks_markStarted hk hs) h.strung.nodup h.strung.known (fun r _ => ?_)
        fun r hr => ?_
      · rw [isStarted_markStarted]
        simp [hk, eq_comm (a := s)]
      · simpa using hr.symm
    exact hchain.imp fun p r hpr =>
      hpr.frame [.started s] .rfl .rfl .rfl (by simp [ScopeEvent.tries])

/-- What happens when a request extends a chain is silent about the known scopes, and about all
scopes unless the one before the link is over. -/
theorem silent_extension (h : r ≠ w.nextId ∨ ¬ w.isOver w.community) : Silent r w.extension := by
  unfold extension
  rcases h with h | h
  · split <;> simp [ScopeEvent.tries, ScopeId.number_inj, h.symm]
  · simp [h, ScopeEvent.tries]

/-- **A request hands the turn over to its user scope** if the scope before that is over or is over
now, and other turns as an end does. -/
theorem Extended.handover (hx : Extended w u) (h : w.Woven links)
    (hv : v = (u.finish w.community).1) (he : events = (u.finish w.community).2) :
    (chainOf (links ++ [w.newLink])).IsChain (Handover .newScope w v
      (.linked w.nextId w.afterNextId :: (w.extension ++ events))) := by
  have hchain : (chainOf (links ++ [w.newLink])).IsChain (Handover .newScope u v events) := by
    rw [hv, he]
    exact (hx.woven h).finish_handover w.community fun r hr => by cases hr
  have hf := (hx.woven h).finish w.community
  rw [← hv] at hf
  have hkc : w.Known w.community := h.strung.known _ h.current_mem
  have hlinked : ∀ {r}, Silent r w.extension →
      Silent r (.linked w.nextId w.afterNextId :: w.extension) := by
    intro r hr
    simp [hr, ScopeEvent.tries]
  rw [chainOf_append] at hchain ⊢
  obtain ⟨hold, hnew, hjoin⟩ := List.isChain_append.mp hchain
  refine List.isChain_append.mpr ⟨?_, List.isChain_pair.mpr ?_, ?_⟩
  · refine hold.imp_of_mem_imp fun p r hp hr hpr => ?_
    have hkp := h.strung.known p hp
    have hkr := h.strung.known r hr
    refine hpr.frame _ ?_ (hx.started r hkr).symm .rfl
      (hlinked (silent_extension (.inl (ne_of_known hkr).1)))
    simp only [Due, hx.isOver hkp, hkr, hx.known hkr]
  · have hopen : ¬ v.isOver w.nextId := by
      rw [isOver_iff, hf.ended]
      rintro ⟨-, h | h⟩
      · exact hx.user.2.1 h
      · exact (ne_of_known hkc).1 h.symm
    refine (List.isChain_pair.mp hnew).frame _ ?_ ?_ .rfl
      (hlinked (silent_extension (.inl nextId_ne_afterNextId.symm)))
    · simp [Due, newLink, hopen]
    · exact ⟨fun h => absurd (known_of_isStarted h) not_known_afterNextId, fun h => absurd h hx.next.2.2⟩
  · intro p hp r hr
    obtain rfl : w.community = p := by simpa [h.current] using hp
    obtain rfl : w.nextId = r := by simpa [newLink] using hr
    have hns : ¬ w.isStarted w.nextId := mt known_of_isStarted not_known_nextId
    by_cases ho : w.isOver w.community
    · have huo := (hx.isOver hkc).mpr ho
      rw [isOver_iff] at huo
      rw [finish_eq, run_finish_again huo.2, run_nil] at hv he
      subst hv he
      have hbefore : Silent w.nextId [.linked w.nextId w.afterNextId,
          .registered w.nextId w.afterNextId.number, .registered w.community w.nextId.number] := by
        simp [ScopeEvent.tries]
      refine .opened ⟨(hx.isOver hkc).mpr ho, .inr not_known_nextId⟩ hns (hx.user.2.2.2.mpr ho) ?_
        hbefore silent_nil
      simp [extension, ho]
    · refine (hjoin w.community hp w.nextId hr).frame _ ?_ ?_ .rfl
        (hlinked (silent_extension (.inr ho)))
      · simp [Due, hx.isOver hkc, ho]
      · rw [hx.user.2.2.2]
        exact ⟨fun h => absurd h hns, fun h => absurd h ho⟩

/-- **Every call hands over the turns that are due**, and tries no other scopes. -/
theorem Sound.serve_handover (h : w.Sound links) (c : Call) :
    (chainOf (links ++ (c.link? w).toList)).IsChain (Handover c w (w.serve c).1 (w.serve c).2) := by
  have hkeep : ∀ {c : Call} {v : Scheduler}, w.Agree v → (∀ r, c ≠ .start r) →
      (chainOf (links ++ [])).IsChain (Handover c w v []) := by
    intro c v ha hc
    rw [List.append_nil]
    exact h.handover_agree ha (fun r hr => absurd hr (hc r)) fun _ => silent_nil
  cases c with
  | newScope =>
      cases hc : w.closed with
      | true =>
          have hl : Call.newScope.link? w = none := if_pos hc
          rw [hl, Scheduler.serve, newScope_closed hc, Option.toList_none, List.append_nil]
          refine h.handover_kept (fun p _ ho => ?_) (fun r _ => ?_) fun _ => silent_nil
          · exact isOver_of_isOver_create (isOver_of_isOver_create ho)
          · rw [grow, isStarted_create, isStarted_create]
            simp
      | false =>
          have hl : Call.newScope.link? w = some w.newLink := if_neg (by simp [hc])
          obtain ⟨u, hx, heq⟩ := h.toWoven.exists_extended hc
          rw [hl, Scheduler.serve, heq]
          exact hx.handover h.toWoven rfl rfl
  | create kind interval =>
      rw [append_link? (.create kind interval) (by simp)]
      refine h.handover_kept (fun p _ => isOver_of_isOver_create) (fun r _ => ?_) fun _ => silent_nil
      rw [Scheduler.serve, isStarted_create]
      simp
  | start s =>
      rw [append_link? (.start s) (by simp)]
      exact h.toWoven.start_handover s
  | finish s =>
      rw [append_link? (.finish s) (by simp)]
      exact h.toWoven.finish_handover s (by simp)
  | abandon s => exact hkeep agree_abandon (by simp)
  | advance ms =>
      rw [append_link? (.advance ms) (by simp)]
      refine h.handover_agree (agree_advance ms) (by simp) fun r e he => ?_
      obtain ⟨s, time, seconds, rfl⟩ := exists_rang he
      simp [ScopeEvent.tries]
  | disown => exact hkeep (.of_scopes rfl) (by simp)
  | beginClose =>
      rw [append_link? .beginClose (by simp)]
      exact (h.toWoven.closing.finish_handover (c := .beginClose) w.community (by simp)).imp fun p r hpr =>
        hpr.frame [] .rfl .rfl .rfl silent_nil
  | endClose => exact hkeep (.of_scopes rfl) (by simp)
  | nothing => exact hkeep (.of_scopes rfl) (by simp)

/-! ### Silence -/

/-- In an end nothing is heard of a scope without a scope before it. -/
theorem Woven.finish_silent (h : w.Woven links) (s : ScopeId) (hr : r ∉ (chainOf links).tail) :
    Silent r (w.finish s).2 := by
  rcases h.finish_cases s with ⟨-, heq⟩ | ⟨-, v, events, hset, heq⟩ <;> rw [heq]
  · exact silent_nil
  · simp [hset.silent hr, ScopeEvent.tries]

/-- In a start nothing is heard of a scope without a scope before it. -/
theorem Woven.start_silent (h : w.Woven links) (s : ScopeId) (hr : r ∉ (chainOf links).tail) :
    Silent r (w.serve (.start s)).2 := by
  rcases h.start_cases s with ⟨-, heq⟩ | ⟨-, heq⟩ | ⟨-, -, v, events, hset, heq⟩ <;>
    rw [serve, heq]
  · exact silent_nil
  · exact silent_nil
  · simp [hset.silent hr, ScopeEvent.tries]

/-- **A call is silent about all scopes that have no scope before them**: those outside the chain and
the first one. -/
theorem Sound.serve_silent (h : w.Sound links) (c : Call)
    (hr : r ∉ (chainOf (links ++ (c.link? w).toList)).tail) : Silent r (w.serve c).2 := by
  cases c with
  | newScope =>
      cases hc : w.closed with
      | true =>
          rw [Scheduler.serve, newScope_closed hc]
          exact silent_nil
      | false =>
          have hl : Call.newScope.link? w = some w.newLink := if_neg (by simp [hc])
          obtain ⟨u, hx, heq⟩ := h.toWoven.exists_extended hc
          rw [hl] at hr
          have hne : r ≠ w.nextId := by
            rintro rfl
            exact hr (by simp [chainOf, newLink])
          have hfinish := (hx.woven h.toWoven).finish_silent w.community hr
          rw [Scheduler.serve, heq]
          simp [hfinish, silent_extension (.inl hne), ScopeEvent.tries]
  | start s =>
      rw [append_link? (.start s) (by simp)] at hr
      exact h.toWoven.start_silent s hr
  | finish s =>
      rw [append_link? (.finish s) (by simp)] at hr
      exact h.toWoven.finish_silent s hr
  | advance ms =>
      intro e he
      obtain ⟨s, time, seconds, rfl⟩ := exists_rang he
      simp [ScopeEvent.tries]
  | beginClose =>
      rw [append_link? .beginClose (by simp)] at hr
      exact h.toWoven.closing.finish_silent w.community hr
  | _ => exact silent_nil

end Scheduler

end ScopedSql
