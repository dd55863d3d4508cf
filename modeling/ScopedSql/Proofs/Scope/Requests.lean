import ScopedSql.Proofs.Scope.Changes

/-!
# Requests for a user scope

A request to an open scheduler creates two scopes, registers the hooks of two links and ends the
community scope that was current. All but the end is said by `Extended`: two scopes stand behind the
chain, and the first of them is linked to the scope that was current. `Woven.exists_extended` finds
such an extension in every request, and `Extended.woven` and `Extended.inOrder` say that the longer
chain is as good as the one before.
-/

namespace ScopedSql

namespace Scheduler

variable {w u v : Scheduler} {s r : ScopeId} {links : Links}

/-! ### The new scopes -/

/-- The identity of the next scope but one. -/
def afterNextId (w : Scheduler) : ScopeId := ⟨w.scopes.length + 1⟩

/-- The link that a request puts behind the chain. -/
def newLink (w : Scheduler) : ScopeId × ScopeId := (w.nextId, w.afterNextId)

/-- The scheduler with a new user scope and a new community scope. -/
def grow (w : Scheduler) : Scheduler :=
  ((w.create .user w.interval).1.create .community w.interval).1

/-- The scheduler with the new scopes in their places, before any hook is registered. -/
def enlist (w : Scheduler) : Scheduler :=
  { w.grow with pending := w.pending ++ [w.nextId], community := w.afterNextId }

/-- After one new scope the number of the second one is next. -/
theorem nextId_create {kind : ScopeKind} {interval : Nat} :
    (w.create kind interval).1.nextId = w.afterNextId := by
  simp [nextId, afterNextId, create]

/-- The two new scopes are different. -/
theorem nextId_ne_afterNextId : w.nextId ≠ w.afterNextId := by
  simp [nextId, afterNextId]

/-- The second new scope is not there before the request. -/
theorem not_known_afterNextId : ¬ w.Known w.afterNextId := by
  simp [Known, afterNextId]

/-- The scopes of the longer list are the old ones and the two new ones. -/
theorem known_grow : w.grow.Known r ↔ w.Known r ∨ r = w.nextId ∨ r = w.afterNextId := by
  rw [grow, known_create, nextId_create, known_create, or_assoc]

/-- The scopes that were ended before are ended, and none of the new ones is. -/
theorem isEnded_grow :
    w.grow.isEnded r ↔ w.isEnded r ∧ r ≠ w.nextId ∧ r ≠ w.afterNextId := by
  rw [grow, isEnded_create, nextId_create, isEnded_create, and_assoc]

/-- Putting the new scopes in their places changes no scope. -/
theorem agree_enlist : w.grow.Agree w.enlist := .of_scopes rfl

/-- The kinds of all scopes, with the new ones in their places. -/
theorem kind?_enlist : w.enlist.kind? r =
    if r = w.afterNextId then some .community else if r = w.nextId then some .user
      else w.kind? r := by
  rw [agree_enlist.kind, grow, kind?_create, nextId_create, kind?_create]

/-- With the new scopes in their places those are started that were before. -/
theorem isStarted_enlist : w.enlist.isStarted r = w.isStarted r := by
  rw [agree_enlist.started, grow, isStarted_create, isStarted_create]

/-- With the new scopes in their places none of them is ended, and the others are as they were. -/
theorem isEnded_enlist :
    w.enlist.isEnded r ↔ w.isEnded r ∧ r ≠ w.nextId ∧ r ≠ w.afterNextId := by
  rw [agree_enlist.ended, isEnded_grow]

/-- No hook comes with the new scopes. -/
theorem hooksOf_enlist : w.enlist.hooksOf r = w.hooksOf r := by
  rw [agree_enlist.hooks, grow, hooksOf_create, hooksOf_create]

/-- A request to a closed scheduler creates two scopes in vain. -/
theorem newScope_closed (h : w.closed) : w.newScope = (w.grow, .error .schedulerClosed, []) := by
  have hc : ((w.create .user w.interval).1.create .community w.interval).1.closed = w.closed := rfl
  simp [newScope, grow, create, h]

/-- A request to an open scheduler registers the hooks of two links and ends the community scope
that was current. -/
theorem newScope_open (h : w.closed = false) :
    w.newScope =
      let r := w.enlist.run [.command (.onEnd w.nextId (userHook w.nextId w.afterNextId)),
        .command (.onEnd w.community (communityHook w.nextId)), .command (.finish w.community)]
      (r.1, .ok w.nextId, .linked w.nextId w.afterNextId :: r.2) := by
  simp [newScope, grow, enlist, perform, create, h, nextId, afterNextId]

/-! ### The longer chain -/

/-- **A chain is extended**: the new user scope and the new community scope stand behind it and hold
the hooks of their links, and the user scope was started if the scope before it is over. -/
structure Extended (w u : Scheduler) : Prop where
  /-- Known scopes keep their kinds. -/
  kind : ∀ r, w.Known r → u.kind? r = w.kind? r
  /-- Known scopes keep their start signals. -/
  started : ∀ r, w.Known r → (u.isStarted r ↔ w.isStarted r)
  /-- Known scopes keep their end signals. -/
  ended : ∀ r, w.Known r → (u.isEnded r ↔ w.isEnded r)
  /-- No other scopes are created. -/
  new : ∀ {r}, u.Known r → ¬ w.Known r → r = w.nextId ∨ r = w.afterNextId
  /-- Only the scope before the link gets a hook, unless it is over. -/
  hooks : ∀ r, r ≠ w.nextId → u.hooksOf r =
    if r = w.community ∧ ¬ w.isOver r then [communityHook w.nextId] else w.hooksOf r
  /-- The user scope. -/
  user : u.kind? w.nextId = some .user ∧ ¬ u.isEnded w.nextId ∧
    u.hooksOf w.nextId = [userHook w.nextId w.afterNextId] ∧
      (u.isStarted w.nextId ↔ w.isOver w.community)
  /-- The community scope. -/
  next : u.kind? w.afterNextId = some .community ∧ ¬ u.isEnded w.afterNextId ∧
    ¬ u.isStarted w.afterNextId
  /-- The community scope is current. -/
  community : u.community = w.afterNextId
  /-- The scheduler is open or closed as before. -/
  closed : u.closed = w.closed
  /-- The scheduler is held or lost as before. -/
  owned : u.owned = w.owned
  /-- The user scope is pending. -/
  pending : u.pending = w.pending ++ [w.nextId]

/-- The scheduler with the new scopes in their places and the hook of the user scope. -/
def hooked (w : Scheduler) : Scheduler :=
  w.enlist.addHook w.nextId (userHook w.nextId w.afterNextId)

/-- The new scopes are none of the old ones. -/
theorem ne_of_known (h : w.Known r) : r ≠ w.nextId ∧ r ≠ w.afterNextId :=
  ⟨by rintro rfl; exact not_known_nextId h, by rintro rfl; exact not_known_afterNextId h⟩

/-- The new user scope is there. -/
theorem known_enlist_nextId : w.enlist.Known w.nextId := by
  rw [known_iff_kind?, kind?_enlist, if_neg nextId_ne_afterNextId, if_pos rfl]
  rfl

/-- The kinds of all scopes, with the hook of the new user scope in place. -/
theorem kind?_hooked : w.hooked.kind? r =
    if r = w.afterNextId then some .community else if r = w.nextId then some .user
      else w.kind? r := by
  rw [hooked, kind?_addHook, kind?_enlist]

/-- A scope that was not there before is one of the two new ones. -/
theorem new_of_known_hooked (hk : w.hooked.Known r) (hn : ¬ w.Known r) :
    r = w.nextId ∨ r = w.afterNextId := by
  by_contra h
  rw [not_or] at h
  rw [known_iff_kind?, kind?_hooked, if_neg h.2, if_neg h.1, ← known_iff_kind?] at hk
  exact hn hk

/-- With the hook in place those scopes are started that were before. -/
theorem isStarted_hooked : w.hooked.isStarted r = w.isStarted r := by
  rw [hooked, isStarted_addHook, isStarted_enlist]

/-- With the hook in place none of the new scopes is ended, and the others are as they were. -/
theorem isEnded_hooked :
    w.hooked.isEnded r ↔ w.isEnded r ∧ r ≠ w.nextId ∧ r ≠ w.afterNextId := by
  rw [hooked, isEnded_addHook, isEnded_enlist]

/-- One hook is new: that of the new user scope. -/
theorem hooksOf_hooked : w.hooked.hooksOf r =
    if r = w.nextId then [userHook w.nextId w.afterNextId] else w.hooksOf r := by
  rw [hooked, hooksOf_addHook known_enlist_nextId, hooksOf_enlist]
  split
  · rename_i h
    rw [h, hooksOf_of_not_known not_known_nextId, List.nil_append]
  · rfl

/-- With the hook in place those old scopes are over that were before. -/
theorem isOver_hooked (h : w.Known r) : w.hooked.isOver r ↔ w.isOver r := by
  rw [isOver_iff, isOver_iff, isStarted_hooked, isEnded_hooked]
  simp [ne_of_known h]

/-- The old scopes stay. -/
theorem known_hooked (h : w.Known r) : w.hooked.Known r := by
  rw [known_iff_kind?, kind?_hooked, if_neg (ne_of_known h).2, if_neg (ne_of_known h).1]
  exact known_iff_kind?.mp h

/-- Where the scope before it is over, the user scope is started at once. -/
theorem extended_of_isOver (ho : w.isOver w.community) :
    Extended w (w.hooked.markStarted w.nextId) where
  kind r hr := by
    rw [kind?_markStarted, kind?_hooked, if_neg (ne_of_known hr).2, if_neg (ne_of_known hr).1]
  started r hr := by
    rw [isStarted_markStarted, isStarted_hooked]
    simp [(ne_of_known hr).1]
  ended r hr := by
    rw [isEnded_markStarted, isEnded_hooked]
    simp [ne_of_known hr]
  new hk hn := new_of_known_hooked (known_markStarted.mp hk) hn
  hooks r hr := by
    rw [hooksOf_markStarted, hooksOf_hooked, if_neg (fun h => hr h.1), if_neg hr, if_neg]
    rintro ⟨rfl, h⟩
    exact h ho
  user := by
    have hk : w.hooked.Known w.nextId := by
      rw [hooked, known_addHook]
      exact known_enlist_nextId
    have he : ¬ w.hooked.isEnded w.nextId := by rw [isEnded_hooked]; simp
    refine ⟨?_, ?_, ?_, ?_⟩
    · rw [kind?_markStarted, kind?_hooked, if_neg nextId_ne_afterNextId, if_pos rfl]
    · rw [isEnded_markStarted]
      exact he
    · rw [hooksOf_markStarted, if_neg (fun h => he h.2), hooksOf_hooked, if_pos rfl]
    · rw [isStarted_markStarted]
      simp [hk, ho]
  next := by
    have hs : ¬ w.isStarted w.afterNextId := mt known_of_isStarted not_known_afterNextId
    refine ⟨?_, ?_, ?_⟩
    · rw [kind?_markStarted, kind?_hooked, if_pos rfl]
    · rw [isEnded_markStarted, isEnded_hooked]
      simp
    · rw [isStarted_markStarted, isStarted_hooked]
      simp [hs, nextId_ne_afterNextId.symm]
  community := rfl
  closed := rfl
  owned := rfl
  pending := rfl

/-- Where it is not, its start is left to a hook. -/
theorem extended_of_not_isOver (hk : w.Known w.community) (hb : w.hooksOf w.community = [])
    (ho : ¬ w.isOver w.community) :
    Extended w (w.hooked.addHook w.community (communityHook w.nextId)) where
  kind r hr := by
    rw [kind?_addHook, kind?_hooked, if_neg (ne_of_known hr).2, if_neg (ne_of_known hr).1]
  started r hr := by rw [isStarted_addHook, isStarted_hooked]
  ended r hr := by
    rw [isEnded_addHook, isEnded_hooked]
    simp [ne_of_known hr]
  new hk' hn := new_of_known_hooked (known_addHook.mp hk') hn
  hooks r hr := by
    rw [hooksOf_addHook (known_hooked hk), hooksOf_hooked, if_neg hr]
    by_cases hc : r = w.community
    · subst hc
      simp [ho, hb]
    · simp [hc]
  user := by
    have hs : ¬ w.isStarted w.nextId := mt known_of_isStarted not_known_nextId
    refine ⟨?_, ?_, ?_, ?_⟩
    · rw [kind?_addHook, kind?_hooked, if_neg nextId_ne_afterNextId, if_pos rfl]
    · rw [isEnded_addHook, isEnded_hooked]
      simp
    · rw [hooksOf_addHook (known_hooked hk), if_neg (ne_of_known hk).1.symm, hooksOf_hooked,
        if_pos rfl]
    · rw [isStarted_addHook, isStarted_hooked]
      exact ⟨fun h => absurd h hs, fun h => absurd h ho⟩
  next := by
    have hs : ¬ w.isStarted w.afterNextId := mt known_of_isStarted not_known_afterNextId
    refine ⟨?_, ?_, ?_⟩
    · rw [kind?_addHook, kind?_hooked, if_pos rfl]
    · rw [isEnded_addHook, isEnded_hooked]
      simp
    · rw [isStarted_addHook, isStarted_hooked]
      exact hs
  community := rfl
  closed := rfl
  owned := rfl
  pending := rfl

/-- What happens when a request extends a chain: two hooks are registered, and the one of the scope
before the link runs at once if that scope is over. -/
def extension (w : Scheduler) : List ScopeEvent :=
  [.registered w.nextId w.afterNextId.number, .registered w.community w.nextId.number] ++
    if w.isOver w.community then [.fired w.community w.nextId.number, .started w.nextId] else []

/-- No start is refused when the chain is extended. -/
theorem refused_not_mem_extension : .refused r ∉ w.extension := by
  unfold extension
  split <;> simp

/-- **A request extends the chain** and then ends the community scope that was current. -/
theorem Woven.exists_extended (h : w.Woven links) (hc : w.closed = false) :
    ∃ u, Extended w u ∧ w.newScope = ((u.finish w.community).1, .ok w.nextId,
      .linked w.nextId w.afterNextId :: (w.extension ++ (u.finish w.community).2)) := by
  have hk : w.Known w.community := h.strung.known _ h.current_mem
  have hb : w.hooksOf w.community = [] := h.strung.bare _ h.current
  have hopen : ¬ w.enlist.isEnded w.nextId := by rw [isEnded_enlist]; simp
  have hover : ¬ w.enlist.isOver w.nextId := by rw [isOver_iff]; exact fun ho => hopen ho.2
  rw [newScope_open hc, run_onEnd known_enlist_nextId hover]
  by_cases ho : w.isOver w.community
  · refine ⟨w.hooked.markStarted w.nextId, extended_of_isOver ho, ?_⟩
    have hku : w.hooked.Known w.nextId := by
      rw [hooked, known_addHook]
      exact known_enlist_nextId
    have hs : ¬ w.hooked.isStarted w.nextId := by
      rw [isStarted_hooked]
      exact mt known_of_isStarted not_known_nextId
    have he : ¬ w.hooked.isEnded w.nextId := by rw [isEnded_hooked]; simp
    rw [← hooked, run_onEnd_over ((isOver_hooked hk).mpr ho), run_hook]
    rw [communityHook, Hook.body, List.map_singleton, List.singleton_append, run_start hku hs,
      if_neg he, List.nil_append, ← finish_eq, extension, if_pos ho]
    simp [emit, Hook.label, userHook]
  · refine ⟨w.hooked.addHook w.community (communityHook w.nextId),
      extended_of_not_isOver hk hb ho, ?_⟩
    rw [← hooked, run_onEnd (known_hooked hk) (mt (isOver_hooked hk).mp ho), ← finish_eq, extension,
      if_neg ho]
    simp [emit, Hook.label, userHook, communityHook]

/-- The old scopes are there in a chain that is extended. -/
theorem Extended.known (hx : Extended w u) (hr : w.Known r) : u.Known r := by
  rw [known_iff_kind?, hx.kind r hr]
  exact known_iff_kind?.mp hr

/-- The old scopes that are over are the same when the chain is extended. -/
theorem Extended.isOver (hx : Extended w u) (hr : w.Known r) : u.isOver r ↔ w.isOver r := by
  rw [isOver_iff, isOver_iff, hx.started r hr, hx.ended r hr]

/-- A scheduler evolves when its chain is extended. -/
theorem Extended.evolves (hx : Extended w u) : w.Evolves u where
  kind := hx.kind
  started r hr := (hx.started r (known_of_isStarted hr)).mpr hr
  ended r hk hr := (hx.ended r hk).mpr hr

/-- Scopes of the chain keep their links; the last one has none to keep unless it is over. -/
theorem Extended.linkedTo (hx : Extended w u) (h : w.Woven links) (hs : s ∈ chainOf links)
    (hsr : w.LinkedTo s r) : u.LinkedTo s r := by
  have hk : w.Known s := h.strung.known s hs
  refine hsr.frame (hx.kind s hk) (hx.isOver hk) ?_ fun hr =>
    (hx.started r (known_of_isStarted hr)).mpr hr
  rw [hx.hooks s (ne_of_known hk).1]
  by_cases hc : s = w.community ∧ ¬ w.isOver s
  · have hbare := h.strung.bare s (by rw [h.current, hc.1]; rfl)
    rw [hsr.waiting hc.2] at hbare
    simp at hbare
  · rw [if_neg hc]

/-- The scope that was current is linked to the new user scope. -/
theorem Extended.linkedTo_user (hx : Extended w u) (h : w.Woven links) :
    u.LinkedTo w.community w.nextId := by
  have hk : w.Known w.community := h.strung.known _ h.current_mem
  have hhooks := hx.hooks w.community (ne_of_known hk).1
  constructor <;> intro ho <;> rw [hx.isOver hk] at ho
  · rw [hhooks, if_pos ⟨rfl, ho⟩, link, hx.kind _ hk, h.kind_current]
    rfl
  · rw [hhooks, if_neg fun hc => hc.2 ho]
    exact ⟨h.strung.bare _ h.current, hx.user.2.2.2.mpr ho⟩

/-- The new user scope is linked to the new community scope. -/
theorem Extended.linkedTo_next (hx : Extended w u) : u.LinkedTo w.nextId w.afterNextId := by
  obtain ⟨hkind, hopen, hhooks, -⟩ := hx.user
  have ho : ¬ u.isOver w.nextId := by rw [isOver_iff]; exact fun h => hopen h.2
  refine ⟨fun _ => ?_, fun h => absurd h ho⟩
  rw [hhooks, link, if_pos hkind]

/-- Outside the chain only the new user scope holds a hook. -/
theorem Extended.hooksOf_nil (hx : Extended w u) (h : w.Woven links) (hs : s ∉ chainOf links)
    (hne : s ≠ w.nextId) : u.hooksOf s = [] := by
  rw [hx.hooks s hne, if_neg, h.loose s hs]
  rintro ⟨rfl, -⟩
  exact hs h.current_mem

/-- **The extended chain is strung.** -/
theorem Extended.strung (hx : Extended w u) (h : w.Woven links) :
    u.Strung (chainOf (links ++ [w.newLink])) := by
  have hne : w.nextId ≠ w.afterNextId := nextId_ne_afterNextId
  rw [chainOf_append]
  constructor
  case nodup =>
    refine List.nodup_append.mpr ⟨h.strung.nodup, by simp [newLink, hne], ?_⟩
    rintro a ha b hb rfl
    have := ne_of_known (h.strung.known a ha)
    simp [newLink, this] at hb
  case known =>
    intro r hr
    rcases List.mem_append.mp hr with hr | hr
    · exact hx.known (h.strung.known r hr)
    · obtain rfl | rfl : r = w.nextId ∨ r = w.afterNextId := by simpa [newLink] using hr
      · exact known_iff_kind?.mpr (by rw [hx.user.1]; rfl)
      · exact known_iff_kind?.mpr (by rw [hx.next.1]; rfl)
  case linked =>
    refine List.isChain_append.mpr ⟨?_, List.isChain_pair.mpr hx.linkedTo_next, ?_⟩
    · exact h.strung.linked.imp_of_mem_imp fun a b ha _ hab => hx.linkedTo h ha hab
    · intro a ha b hb
      obtain rfl : w.community = a := by simpa [h.current] using ha
      obtain rfl : w.nextId = b := by simpa [newLink] using hb
      exact hx.linkedTo_user h
  case bare =>
    intro r hr
    obtain rfl : w.afterNextId = r := by simpa [newLink] using hr
    exact hx.hooksOf_nil h (fun e => not_known_afterNextId (h.strung.known _ e)) hne.symm

/-- **The extended chain is woven.** -/
theorem Extended.woven (hx : Extended w u) (h : w.Woven links) :
    u.Woven (links ++ [w.newLink]) := by
  have hknown : ∀ r ∈ chainOf links, w.Known r := h.strung.known
  constructor
  case strung => exact hx.strung h
  case loose =>
    intro s hs
    rw [chainOf_append] at hs
    obtain ⟨hold, hnew⟩ := not_or.mp (mt List.mem_append.mpr hs)
    exact hx.hooksOf_nil h hold (List.ne_of_not_mem_cons hnew)
  case first => exact hx.evolves.started _ h.first
  case current => rw [chainOf_append, hx.community]; simp [newLink]
  case root => rw [hx.kind _ (hknown _ (by simp [chainOf]))]; exact h.root
  case users =>
    intro l hl
    rcases List.mem_append.mp hl with hl | hl
    · rw [hx.kind _ (hknown _ (mem_chainOf.mpr (.inr ⟨l, hl, .inl rfl⟩)))]
      exact h.users l hl
    · obtain rfl : l = w.newLink := by simpa using hl
      exact hx.user.1
  case communities =>
    intro l hl
    rcases List.mem_append.mp hl with hl | hl
    · rw [hx.kind _ (hknown _ (mem_chainOf.mpr (.inr ⟨l, hl, .inr rfl⟩)))]
      exact h.communities l hl
    · obtain rfl : l = w.newLink := by simpa using hl
      exact hx.next.1
  case pending =>
    rw [hx.pending, usersOf_append]
    exact h.pending.append (List.Sublist.refl _)
  case listed =>
    intro s hs
    rw [usersOf_append] at hs
    rw [hx.pending]
    rcases List.mem_append.mp hs with hs | hs
    · rw [hx.isOver (hknown s (mem_chainOf_of_mem_usersOf hs))]
      exact (h.listed s hs).imp_left fun hp => List.mem_append_left _ hp
    · exact .inl (List.mem_append_right _ hs)

/-- **The extended chain is in order** if the chain was. -/
theorem Extended.inOrder (hx : Extended w u) (h : w.Woven links)
    (hi : (chainOf links).IsChain w.InOrder) :
    (chainOf (links ++ [w.newLink])).IsChain u.InOrder := by
  have hkc : w.Known w.community := h.strung.known _ h.current_mem
  rw [chainOf_append]
  refine List.isChain_append.mpr ⟨?_, List.isChain_pair.mpr ?_, ?_⟩
  · refine hi.imp_of_mem_imp fun a b ha hb hab hst => ?_
    have hka := h.strung.known a ha
    have hkb := h.strung.known b hb
    exact (hx.isOver hka).mpr (hab ((hx.started b hkb).mp hst))
  · exact fun hst => absurd hst hx.next.2.2
  · intro a ha b hb
    obtain rfl : w.community = a := by simpa [h.current] using ha
    obtain rfl : w.nextId = b := by simpa [newLink] using hb
    exact fun hst => (hx.isOver hkc).mpr (hx.user.2.2.2.mp hst)

end Scheduler

end ScopedSql
