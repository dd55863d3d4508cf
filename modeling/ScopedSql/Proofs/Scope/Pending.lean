import Mathlib.Data.List.Perm.Subperm
import ScopedSql.Proofs.Scope.Calls

/-!
# The list of pending scopes

A user scope is put on the list of pending scopes when it is requested and struck off it when it
passes its turn. As long as anyone has the list, no scope stays on it that is over
(`Sound.serve_struck`), also where scopes were started before their turn. So the list is that of the
user scopes which are not over (`Woven.pending_eq`), and those of them that were not ended are counted
(`Woven.pendingCount_eq`).
-/

namespace ScopedSql

namespace Scheduler

variable {w m v u : Scheduler} {s r : ScopeId} {links : Links} {rest : List ScopeId}
  {events : List ScopeEvent} {c : Call}

/-- **No scope is pending that is over.** -/
def Struck (w : Scheduler) : Prop := ∀ r ∈ w.pending, ¬ w.isOver r

/-- A user scope that leaves is struck off the list. -/
theorem mem_of_mem_leave (h : r ∈ (w.leave s).pending) :
    r ∈ w.pending ∧ (w.owned → w.kind? r = some .user → r ≠ s) := by
  unfold leave at h
  split at h
  · obtain ⟨hmem, hne⟩ := List.mem_filter.mp h
    exact ⟨hmem, fun _ _ => by simpa using hne⟩
  · rename_i hnot
    refine ⟨h, ?_⟩
    rintro ho hk rfl
    exact hnot ⟨hk, ho⟩

/-- **A turn strikes off every scope that it passes**, unless that is the last one. -/
theorem Passes.struck (h : Passes w s rest v events) (ho : w.owned)
    (hu : ∀ r ∈ w.pending, w.kind? r = some .user)
    (hl : ∀ r ∈ (s :: rest).getLast?, w.kind? r ≠ some .user) :
    ∀ r ∈ v.pending, v.isOver r → w.isOver r ∧ r ≠ s := by
  induction h with
  | last =>
      intro r hr hover
      refine ⟨hover, ?_⟩
      rintro rfl
      exact hl r rfl (hu r hr)
  | refused =>
      intro r hr hover
      obtain ⟨hmem, hne⟩ := mem_of_mem_leave hr
      rw [agree_leave.isOver] at hover
      exact ⟨hover, hne ho (hu r hmem)⟩
  | @opened w s t rest _ he =>
      intro r hr hover
      obtain ⟨hmem, hne⟩ := mem_of_mem_leave hr
      rw [agree_leave.isOver, isOver_markStarted] at hover
      rw [kind?_markStarted] at hne
      exact ⟨hover.resolve_right fun h => he h.2.2, hne ho (hu r hmem)⟩
  | @onward w v s t rest events _ _ _ hp ih =>
      intro r hr hover
      obtain ⟨hmem, hne⟩ := mem_of_mem_leave hr
      have hpending := hp.pending_sublist.subset hmem
      rw [agree_leave.isOver] at hover
      rw [hp.settings.2.2, hp.kind?, kind?_markStarted] at hne
      have hrest := ih ho (fun q hq => by rw [kind?_markStarted]; exact hu q hq)
        (fun q hq => by rw [kind?_markStarted]; exact hl q (by simpa using hq)) r hmem hover
      rw [isOver_markStarted] at hrest
      exact ⟨hrest.1.resolve_right fun h => hrest.2 h.1, hne ho (hu r hpending)⟩

/-- **A signal leaves no scope on the list that it makes over.** -/
theorem Settles.struck (h : Settles (chainOf links) m s v events) (hw : w.Woven links)
    (hm : w.Marks m s) (hp : m.pending = w.pending) (ho : m.owned) (hs : w.Struck) : v.Struck := by
  have hkind : ∀ r ∈ m.pending, m.kind? r = some .user := by
    intro r hr
    rw [hp] at hr
    rw [hm.kind, hw.kind_user (hw.pending.subset hr)]
  have hkeep : ∀ r ∈ m.pending, m.isOver r → r = s := by
    intro r hr hover
    by_contra hne
    rw [hp] at hr
    exact hs r hr ((hm.isOver r hne).mp hover)
  intro r hr hover
  cases h with
  | waits hno => exact hno (hkeep r hr hover ▸ hover)
  | @passes rest v events _ hb hpass =>
      have hrs := hkeep r (hpass.pending_sublist.subset hr)
      rcases hb with ⟨hsc, rfl⟩ | ⟨before, hc⟩
      · cases hpass
        obtain rfl := hrs hover
        rw [hp] at hr
        exact hsc (mem_chainOf_of_mem_usersOf (hw.pending.subset hr))
      · have hlast : ∀ q ∈ (s :: rest).getLast?, m.kind? q ≠ some .user := by
          intro q hq
          have hcur := hw.current
          rw [hc, List.getLast?_append, Option.mem_def.mp hq] at hcur
          obtain rfl : q = w.community := by simpa using hcur
          rw [hm.kind, hw.kind_current]
          simp
        obtain ⟨hover', hne⟩ := hpass.struck ho hkind hlast r hr hover
        exact hne (hrs hover')

/-! ### Calls -/

/-- After an end no scope is pending that is over. -/
theorem Woven.finish_struck (h : w.Woven links) (ho : w.owned) (hs : w.Struck) (s : ScopeId) :
    (w.finish s).1.Struck := by
  rcases h.finish_cases s with ⟨-, heq⟩ | ⟨he, v, events, hset, heq⟩ <;> rw [heq]
  · exact hs
  · exact hset.struck h (marks_markEnded he) rfl ho hs

/-- The new user scope is not over. -/
theorem Extended.struck (hx : Extended w u) (h : w.Woven links) (hs : w.Struck) : u.Struck := by
  intro r hr
  rw [hx.pending] at hr
  rcases List.mem_append.mp hr with hr | hr
  · rw [hx.isOver (h.strung.known r (mem_chainOf_of_mem_usersOf (h.pending.subset hr)))]
    exact hs r hr
  · obtain rfl := List.mem_singleton.mp hr
    rw [isOver_iff]
    exact fun ho => hx.user.2.1 ho.2

/-- Where two schedulers agree and no more scopes are pending, none is pending that is over. -/
theorem Agree.struck (ha : w.Agree v) (hp : v.pending.Sublist w.pending) (hs : w.Struck) :
    v.Struck := by
  intro r hr
  rw [ha.isOver]
  exact hs r (hp.subset hr)

/-- **Every call leaves no scope on the list that is over**, as long as anyone has the list. -/
theorem Sound.serve_struck (h : w.Sound links) (ho : w.owned) (hs : w.Struck) (c : Call) :
    (w.serve c).1.Struck := by
  cases c with
  | newScope =>
      cases hc : w.closed with
      | true =>
          rw [Scheduler.serve, newScope_closed hc]
          exact fun r hr hover => hs r hr (isOver_of_isOver_create (isOver_of_isOver_create hover))
      | false =>
          obtain ⟨u, hx, heq⟩ := h.toWoven.exists_extended hc
          rw [Scheduler.serve, heq]
          refine (hx.woven h.toWoven).finish_struck ?_ (hx.struck h.toWoven hs) w.community
          rw [hx.owned]
          exact ho
  | create kind interval => exact fun r hr hover => hs r hr (isOver_of_isOver_create hover)
  | start s =>
      rw [Scheduler.serve]
      rcases h.toWoven.start_cases s with ⟨-, heq⟩ | ⟨-, heq⟩ | ⟨hk, hns, v, events, hset, heq⟩ <;>
        rw [heq]
      · exact hs
      · exact hs
      · exact hset.struck h.toWoven (marks_markStarted hk hns) rfl ho hs
  | finish s => exact h.toWoven.finish_struck ho hs s
  | abandon s => exact agree_abandon.struck (.refl _) hs
  | advance ms => exact (agree_advance ms).struck (.refl _) hs
  | disown => exact (Agree.of_scopes rfl).struck (.refl _) hs
  | beginClose =>
      exact h.toWoven.closing.finish_struck ho (agree_closing.struck (.refl _) hs) w.community
  | endClose => exact fun r hr => absurd hr List.not_mem_nil
  | nothing => exact hs

/-- **Only dropping the last handle loses the list.** -/
theorem Sound.owned_serve (h : w.Sound links) (hc : c ≠ .disown) :
    (w.serve c).1.owned = w.owned := by
  cases c with
  | newScope =>
      cases hcl : w.closed with
      | true =>
          rw [Scheduler.serve, newScope_closed hcl]
          rfl
      | false =>
          obtain ⟨u, hx, heq⟩ := h.toWoven.exists_extended hcl
          rw [Scheduler.serve, heq, ((hx.woven h.toWoven).finish w.community).owned, hx.owned]
  | start s =>
      rw [Scheduler.serve]
      rcases h.toWoven.start_cases s with ⟨-, heq⟩ | ⟨-, heq⟩ | ⟨-, -, v, events, hset, heq⟩ <;>
        rw [heq]
      exact hset.settings.2.2
  | finish s => exact (h.toWoven.finish s).owned
  | disown => exact absurd rfl hc
  | beginClose => exact (h.toWoven.closing.finish w.community).owned
  | _ => rfl

/-! ### What the list is -/

/-- No user scope is handed out twice. -/
theorem Woven.users_nodup (h : w.Woven links) : (usersOf links).Nodup :=
  (usersOf_sublist links).nodup h.strung.nodup

/-- **The list of pending scopes is that of the user scopes which are not over.** -/
theorem Woven.pending_eq (h : w.Woven links) (hs : w.Struck) :
    w.pending = (usersOf links).filter fun s => !w.isOver s := by
  have hself : w.pending.filter (fun s => !w.isOver s) = w.pending :=
    List.filter_eq_self.mpr fun r hr => by simpa using hs r hr
  have hsub : w.pending.Sublist ((usersOf links).filter fun s => !w.isOver s) := by
    rw [← hself]
    exact h.pending.filter _
  refine hsub.eq_of_length_le ?_
  refine (List.subperm_of_subset (h.users_nodup.filter _) fun r hr => ?_).length_le
  obtain ⟨hmem, hover⟩ := List.mem_filter.mp hr
  exact (h.listed r hmem).resolve_right (by simpa using hover)

/-- **Counted are the user scopes that were not ended.** -/
theorem Woven.pendingCount_eq (h : w.Woven links) (hs : w.Struck) :
    w.pendingCount = ((usersOf links).filter fun s => !w.isEnded s).length := by
  rw [pendingCount, h.pending_eq hs, List.filter_filter]
  congr 1
  refine List.filter_congr fun r _ => ?_
  cases he : w.isEnded r <;> simp [isOver, he]

end Scheduler

end ScopedSql
