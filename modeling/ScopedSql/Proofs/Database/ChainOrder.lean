import Mathlib.Data.List.TakeWhile
import ScopedSql.Proofs.Database.History
import ScopedSql.Session

/-!
# The order of the chain

As long as no client starts a scope of the chain, the chain is in order: a scope was started exactly
if all scopes before it were ended. So the flags that clients can see follow from the chain and from
which of its scopes were ended, and not from the order in which that happened.
-/

namespace ScopedSql

namespace Scheduler

variable {w : Scheduler} {links : Links} {before later : List ScopeId} {s : ScopeId}

/-- **In a chain that is in order, a scope was started exactly if all scopes before it were ended.** -/
theorem Woven.isStarted_iff (h : w.Woven links) (hi : (chainOf links).IsChain w.InOrder)
    (hc : chainOf links = before ++ s :: later) :
    w.isStarted s ↔ ∀ r ∈ before, w.isEnded r := by
  induction before using List.reverseRecOn generalizing s later with
  | nil =>
      obtain rfl : (⟨0⟩ : ScopeId) = s := (List.cons.inj hc).1
      exact ⟨fun _ r hr => absurd hr List.not_mem_nil, fun _ => h.first⟩
  | append_singleton before p ih =>
      rw [List.append_assoc, List.singleton_append] at hc
      have hp := ih hc
      have hps : w.LinkedTo p s ∧ w.InOrder p s := by
        have hlinked := h.strung.linked
        rw [hc] at hlinked hi
        exact ⟨(List.isChain_cons_cons.mp hlinked.right_of_append).1,
          (List.isChain_cons_cons.mp hi.right_of_append).1⟩
      constructor
      · intro hs r hr
        have ho := isOver_iff.mp (hps.2 hs)
        rcases List.mem_append.mp hr with hr | hr
        · exact hp.mp ho.1 r hr
        · obtain rfl := List.mem_singleton.mp hr
          exact ho.2
      · intro he
        have hsp : w.isStarted p := hp.mpr fun r hr => he r (List.mem_append_left _ hr)
        have hep : w.isEnded p := he p (List.mem_append_right _ (List.mem_singleton_self p))
        exact (hps.1.passed (isOver_iff.mpr ⟨hsp, hep⟩)).2

end Scheduler

/-- The state of a scope is told by its signals. -/
theorem Session.stateOf_eq {db : Database} {s : ScopeId} (h : db.scheduler.Known s) :
    Session.stateOf db s = if db.scheduler.isEnded s then .ended
      else if db.scheduler.isStarted s then .started else .pending :=
  Scheduler.stateOf_eq h

/-- The notice of a scope that was started twice comes from a start that was refused. -/
theorem Session.noticeOf?_startedTwice {db : Database} {e : Event} {s : ScopeId}
    (h : Session.noticeOf? db e = some (.startedTwice s)) :
    e = .scope (.refused s) ∨ e = .noticed (.startedTwice s) := by
  unfold noticeOf? at h
  split at h
  · exact .inr (by rw [Option.some.inj h])
  · cases h
    exact .inl rfl
  · obtain ⟨x, -, hx⟩ := Option.map_eq_some_iff.mp h
    cases hx
  · cases h

namespace History

variable {h : History} {m : Move} {moves : List Move} {interval : Nat} {timed : Bool}
  {before later : List ScopeId} {s : ScopeId}

/-- **No client starts a scope of the chain.** -/
def NoStart (h : History) (m : Move) : Prop := ∀ s ∈ h.chain, m ≠ .act (.start s)

/-- **A history in order**: the chain is, and no start was refused. -/
structure InOrder (h : History) : Prop extends h.Sound where
  /-- No scope was started before the one before it was over. -/
  order : h.chain.IsChain h.db.scheduler.InOrder
  /-- No start was refused. -/
  unrefused : ∀ s, .scope (.refused s) ∉ h.events
  /-- No notice speaks of one. -/
  unnoticed : ∀ s, .noticed (.startedTwice s) ∉ h.events

/-- **A move that starts no scope of the chain keeps the order.** -/
theorem InOrder.move (hi : h.InOrder) (hn : h.NoStart m) : (h.move m).InOrder := by
  obtain ⟨c, hh, -, hl⟩ := hi.toSound.exists_served m
  have hstart : ∀ s, c = .start s → s ∉ chainOf h.links := by
    rintro s rfl hs
    exact hn s hs hh.eq_start
  obtain ⟨hchain, hevents⟩ := hi.chain.serve_inOrder hi.order c hstart
  refine ⟨hi.toSound.move m, ?_, fun s hs => ?_, fun s hs => ?_⟩
  · rw [History.chain, hl, show (h.move m).db.scheduler = _ from hh.scheduler]
    exact hchain
  · rcases List.mem_append.mp hs with hs | hs
    · exact hi.unrefused s hs
    · refine hevents s ?_
      rw [← hh.scope_events]
      exact List.mem_filterMap.mpr ⟨_, hs, rfl⟩
  · rcases List.mem_append.mp hs with hs | hs
    · exact hi.unnoticed s hs
    · obtain ⟨count, hcount⟩ := hh.noticed hs
      cases hcount

/-- **Where no client starts a scope of the chain, every history is in order.** -/
theorem inOrder_history (hk : Keeps NoStart (opening interval timed) moves) :
    (history interval timed moves).InOrder := by
  refine keeps_induction hk ⟨sound_history interval timed [], List.isChain_singleton _, ?_, ?_⟩
    fun h m hi hn => hi.move hn
  · rw [events_opening]
    simp
  · rw [events_opening]
    simp

/-- **The scopes of the chain take turns.** -/
structure TakesTurns (h : History) : Prop where
  /-- A scope was started exactly if all scopes before it were ended. -/
  started_iff : ∀ before s later, h.chain = before ++ s :: later →
    (h.db.scheduler.isStarted s ↔ ∀ r ∈ before, h.db.scheduler.isEnded r)
  /-- The scopes that were started come first. -/
  started_first : ∃ started waiting, h.chain = started ++ waiting ∧
    (∀ s ∈ started, h.db.scheduler.isStarted s) ∧ ∀ s ∈ waiting, ¬ h.db.scheduler.isStarted s
  /-- At most one scope is open. -/
  open_unique : ∀ r ∈ h.chain, ∀ s ∈ h.chain, Session.stateOf h.db r = .started →
    Session.stateOf h.db s = .started → r = s
  /-- No notice says that a scope was started twice. -/
  never_twice : ∀ e ∈ h.events, ∀ db s, Session.noticeOf? db e ≠ some (.startedTwice s)

/-- The scopes of the chain are known. -/
theorem InOrder.known (hi : h.InOrder) (hs : s ∈ h.chain) : h.db.scheduler.Known s :=
  hi.chain.strung.known s hs

/-- **A scope was started exactly if all scopes before it were ended.** -/
theorem InOrder.started_iff (hi : h.InOrder) (hc : h.chain = before ++ s :: later) :
    h.db.scheduler.isStarted s ↔ ∀ r ∈ before, h.db.scheduler.isEnded r :=
  hi.chain.toWoven.isStarted_iff hi.order hc

/-- **The scopes that were started come first** in the chain. -/
theorem InOrder.started_first (hi : h.InOrder) : ∃ started waiting, h.chain = started ++ waiting ∧
    (∀ s ∈ started, h.db.scheduler.isStarted s) ∧ ∀ s ∈ waiting, ¬ h.db.scheduler.isStarted s := by
  have hsplit := List.takeWhile_append_dropWhile (p := h.db.scheduler.isStarted) (l := h.chain)
  refine ⟨_, _, hsplit.symm, fun s hs => List.mem_takeWhile_imp hs, ?_⟩
  cases hw : h.chain.dropWhile h.db.scheduler.isStarted with
  | nil => simp
  | cons s waiting =>
      have hhead := List.head?_dropWhile_not h.db.scheduler.isStarted h.chain
      have hns : ¬ h.db.scheduler.isStarted s := by simpa [hw] using hhead
      have hbehind := hi.order
      rw [← hsplit, hw] at hbehind
      have hno : ¬ h.db.scheduler.isOver s := fun ho => hns (Scheduler.isOver_iff.mp ho).1
      intro r hr
      rcases List.mem_cons.mp hr with rfl | hr
      · exact hns
      · exact Scheduler.not_isStarted_behind hbehind.right_of_append hno r hr

/-- Of two scopes of a list one stands behind the other. -/
theorem pair_sublist_or {l : List ScopeId} {r s : ScopeId} (hr : r ∈ l) (hs : s ∈ l) (hne : r ≠ s) :
    [r, s].Sublist l ∨ [s, r].Sublist l := by
  obtain ⟨before, later, rfl⟩ := List.append_of_mem hr
  have hfrom : [r].Sublist (r :: later) := List.singleton_sublist.mpr List.mem_cons_self
  rcases List.mem_append.mp hs with hs | hs
  · exact .inr ((List.singleton_sublist.mpr hs).append hfrom)
  · have hlater : [s].Sublist later :=
      List.singleton_sublist.mpr ((List.mem_cons.mp hs).resolve_left hne.symm)
    exact .inl ((hlater.cons_cons r).trans (List.sublist_append_right _ _))

/-- Of two scopes of a list the first one stands before the second one. -/
theorem exists_before {l : List ScopeId} {r s : ScopeId} (h : [r, s].Sublist l) :
    ∃ before later, l = before ++ s :: later ∧ r ∈ before := by
  obtain ⟨before, later, rfl, hr, hs⟩ := List.cons_sublist_iff.mp h
  obtain ⟨between, later, rfl⟩ := List.append_of_mem (List.singleton_sublist.mp hs)
  exact ⟨before ++ between, later, by simp, List.mem_append_left _ hr⟩

/-- **When a scope was started, the earlier ones were ended.** -/
theorem InOrder.ended_of_started (hi : h.InOrder) {r s : ScopeId} (hrs : [r, s].Sublist h.chain)
    (hs : h.db.scheduler.isStarted s) : h.db.scheduler.isEnded r := by
  obtain ⟨before, later, hc, hr⟩ := exists_before hrs
  exact (hi.started_iff hc).mp hs r hr

/-- **At most one scope of the chain is open.** -/
theorem InOrder.open_unique (hi : h.InOrder) {r s : ScopeId} (hr : r ∈ h.chain) (hs : s ∈ h.chain)
    (hor : Session.stateOf h.db r = .started) (hos : Session.stateOf h.db s = .started) : r = s := by
  by_contra hne
  have hopen : ∀ q ∈ h.chain, Session.stateOf h.db q = .started →
      h.db.scheduler.isStarted q ∧ ¬ h.db.scheduler.isEnded q := by
    intro q hq ho
    rw [Session.stateOf_eq (hi.known hq)] at ho
    split at ho
    · cases ho
    · split at ho
      · exact ⟨‹_›, ‹_›⟩
      · cases ho
  obtain ⟨hsr, her⟩ := hopen r hr hor
  obtain ⟨hss, hes⟩ := hopen s hs hos
  -- the one in front was ended before the one behind it was started
  rcases pair_sublist_or hr hs hne with hrs | hsr'
  · exact her (hi.ended_of_started hrs hss)
  · exact hes (hi.ended_of_started hsr' hsr)

/-- No notice says that a scope was started twice. -/
theorem InOrder.never_twice (hi : h.InOrder) {e : Event} (he : e ∈ h.events) (db : Database)
    (s : ScopeId) : Session.noticeOf? db e ≠ some (.startedTwice s) := by
  intro hn
  rcases Session.noticeOf?_startedTwice hn with rfl | rfl
  · exact hi.unrefused s he
  · exact hi.unnoticed s he

/-- **In a history in order the scopes of the chain take turns.** -/
theorem InOrder.takesTurns (hi : h.InOrder) : h.TakesTurns where
  started_iff _ _ _ := hi.started_iff
  started_first := hi.started_first
  open_unique _ hr _ hs := hi.open_unique hr hs
  never_twice _ he := hi.never_twice he

/-- **The states of the chain follow from its scopes and from which of them were ended.** -/
theorem InOrder.stateOf_eq {h' : History} (hi : h.InOrder) (hi' : h'.InOrder)
    (hc : h'.chain = h.chain)
    (he : ∀ s ∈ h.chain, h'.db.scheduler.isEnded s = h.db.scheduler.isEnded s) (hs : s ∈ h.chain) :
    Session.stateOf h'.db s = Session.stateOf h.db s := by
  have hstarted : h'.db.scheduler.isStarted s = h.db.scheduler.isStarted s := by
    obtain ⟨before, later, hsplit⟩ := List.append_of_mem hs
    rw [Bool.eq_iff_iff, hi.started_iff hsplit, hi'.started_iff (hc.trans hsplit)]
    refine forall₂_congr fun r hr => ?_
    rw [he r (by rw [hsplit]; exact List.mem_append_left _ hr)]
  rw [Session.stateOf_eq (hi.known hs), Session.stateOf_eq (hi'.known (by rw [hc]; exact hs)),
    he s hs, hstarted]

/-- **Without a start by a client the scopes of the chain take turns**, and their states follow from
which of them were ended, in whatever order that happened. -/
theorem chain_takes_turns (hk : Keeps NoStart (opening interval timed) moves) :
    (history interval timed moves).TakesTurns ∧
      ∀ interval' timed' moves', Keeps NoStart (opening interval' timed') moves' →
        (history interval' timed' moves').chain = (history interval timed moves).chain →
          (∀ s ∈ (history interval timed moves).chain,
            (history interval' timed' moves').db.scheduler.isEnded s =
              (history interval timed moves).db.scheduler.isEnded s) →
            ∀ s ∈ (history interval timed moves).chain,
              Session.stateOf (history interval' timed' moves').db s =
                Session.stateOf (history interval timed moves).db s := by
  have hi := inOrder_history hk
  refine ⟨hi.takesTurns, fun interval' timed' moves' hk' hc he s hs => ?_⟩
  exact hi.stateOf_eq (inOrder_history hk') hc he hs

/-- Two user scopes, the later of which is ended before its turn in one run and after it in the
other. -/
theorem chain_takes_turns_either_way :
    (history 0 false [.act .newScope, .act .newScope, .act (.finish ⟨3⟩),
        .act (.finish ⟨1⟩)]).TakesTurns ∧
      Session.stateOf (history 0 false [.act .newScope, .act .newScope, .act (.finish ⟨1⟩),
        .act (.finish ⟨3⟩)]).db ⟨4⟩ =
      Session.stateOf (history 0 false [.act .newScope, .act .newScope, .act (.finish ⟨3⟩),
        .act (.finish ⟨1⟩)]).db ⟨4⟩ := by
  have hk : ∀ r s, Keeps NoStart (opening 0 false)
      [.act .newScope, .act .newScope, .act (.finish r), .act (.finish s)] := fun r s =>
    keeps_of_forall (by simp [NoStart])
  obtain ⟨hturns, hstates⟩ := chain_takes_turns (hk ⟨3⟩ ⟨1⟩)
  exact ⟨hturns, hstates 0 false _ (hk ⟨1⟩ ⟨3⟩) (by decide +kernel) (by decide +kernel) ⟨4⟩
    (by decide +kernel)⟩

end History

end ScopedSql
