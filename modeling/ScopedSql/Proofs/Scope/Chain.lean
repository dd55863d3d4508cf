import ScopedSql.Proofs.Scope.Turn

/-!
# The chain of scopes

The chain of a scheduler is nowhere stored. It begins with the first community scope, and each request
that succeeds puts one *link* behind it: a user scope and the community scope after that
(`chainOf`). `Woven` ties such a list of links to the state of a scheduler: neighbours are linked by
their hooks, the current community scope is the last one, no other scope holds hooks, and the list of
pending scopes misses no user scope that is not over. `Sound` adds that every community scope but the
current one was ended, and that one as well once the scheduler is closed.

A signal to any scope keeps the chain woven (`Woven.settles`), and if the chain was in order, it stays
so (`Settles.inOrder`).
-/

namespace ScopedSql

/-- **The links of a chain**: each is a user scope and the community scope after it. -/
abbrev Links := List (ScopeId × ScopeId)

/-- The scopes of a chain, in order. -/
def chainOf (links : Links) : List ScopeId :=
  ⟨0⟩ :: links.flatMap fun l => [l.1, l.2]

/-- The user scopes of a chain, in order. -/
def usersOf (links : Links) : List ScopeId :=
  links.map Prod.fst

/-- One more link makes the chain longer by its two scopes. -/
theorem chainOf_append (links : Links) (l : ScopeId × ScopeId) :
    chainOf (links ++ [l]) = chainOf links ++ [l.1, l.2] := by
  simp [chainOf]

/-- One more link makes one more user scope. -/
theorem usersOf_append (links : Links) (l : ScopeId × ScopeId) :
    usersOf (links ++ [l]) = usersOf links ++ [l.1] := by
  simp [usersOf]

/-- The user scopes stand in the chain in the same order. -/
theorem usersOf_sublist (links : Links) : (usersOf links).Sublist (chainOf links) := by
  refine List.Sublist.cons _ ?_
  induction links with
  | nil => exact List.Sublist.refl _
  | cons l links ih =>
      rw [usersOf, List.map_cons, List.flatMap_cons]
      exact (ih.cons _).cons_cons _

/-- The user scopes are scopes of the chain. -/
theorem mem_chainOf_of_mem_usersOf {links : Links} {s : ScopeId} (h : s ∈ usersOf links) :
    s ∈ chainOf links :=
  (usersOf_sublist links).subset h

/-- A scope of the chain is the first one, or belongs to a link. -/
theorem mem_chainOf {links : Links} {s : ScopeId} :
    s ∈ chainOf links ↔ s = ⟨0⟩ ∨ ∃ l ∈ links, s = l.1 ∨ s = l.2 := by
  simp [chainOf]

namespace Scheduler

variable {w m v : Scheduler} {s r : ScopeId} {links : Links} {chain rest : List ScopeId}
  {events : List ScopeEvent}

/-! ### The invariant -/

/-- **The chain is woven into the scheduler.** -/
structure Woven (w : Scheduler) (links : Links) : Prop where
  /-- Neighbours are linked. -/
  strung : w.Strung (chainOf links)
  /-- Scopes outside the chain hold no hooks. -/
  loose : ∀ s, s ∉ chainOf links → w.hooksOf s = []
  /-- The first scope was started. -/
  first : w.isStarted ⟨0⟩
  /-- The last scope is the current community scope. -/
  current : (chainOf links).getLast? = some w.community
  /-- The first scope is a community scope. -/
  root : w.kind? ⟨0⟩ = some .community
  /-- Links begin with user scopes. -/
  users : ∀ l ∈ links, w.kind? l.1 = some .user
  /-- Links end with community scopes. -/
  communities : ∀ l ∈ links, w.kind? l.2 = some .community
  /-- Only user scopes of the chain are pending, in the order of the chain. -/
  pending : w.pending.Sublist (usersOf links)
  /-- A user scope is pending until it is over. -/
  listed : ∀ s ∈ usersOf links, s ∈ w.pending ∨ w.isOver s

/-- **The chain is sound**: it is woven, and community scopes were ended in their time. -/
structure Sound (w : Scheduler) (links : Links) : Prop extends w.Woven links where
  /-- Every community scope but the current one was ended. -/
  superseded : ∀ s ∈ chainOf links, w.kind? s = some .community → s = w.community ∨ w.isEnded s
  /-- The current one was ended if no more scopes are handed out. -/
  closed : w.closed → w.isEnded w.community

/-- The current community scope is in the chain. -/
theorem Woven.current_mem (h : w.Woven links) : w.community ∈ chainOf links :=
  List.mem_of_getLast? h.current

/-- The current community scope is one. -/
theorem Woven.kind_current (h : w.Woven links) : w.kind? w.community = some .community := by
  have hlast := h.current
  rcases List.eq_nil_or_concat links with rfl | ⟨before, l, rfl⟩
  · have hc : (⟨0⟩ : ScopeId) = w.community := by simpa [chainOf] using hlast
    rw [← hc, h.root]
  · rw [List.concat_eq_append, chainOf_append] at hlast
    have hc : l.2 = w.community := by simpa using hlast
    rw [← hc, h.communities l (by simp)]

/-- The user scopes of the links are user scopes. -/
theorem Woven.kind_user {r : ScopeId} (h : w.Woven links) (hr : r ∈ usersOf links) :
    w.kind? r = some .user := by
  obtain ⟨l, hl, rfl⟩ := List.mem_map.mp hr
  exact h.users l hl

/-- The current community scope is no user scope. -/
theorem Woven.community_not_mem_users (h : w.Woven links) : w.community ∉ usersOf links := by
  intro hmem
  have hkind := h.kind_user hmem
  rw [h.kind_current] at hkind
  cases hkind

/-! ### A signal to a scope -/

/-- The scopes that stand behind a scope in the chain: none if it is not there. -/
def Behind (chain : List ScopeId) (s : ScopeId) (rest : List ScopeId) : Prop :=
  s ∉ chain ∧ rest = [] ∨ ∃ before, chain = before ++ s :: rest

/-- Some scopes, or none, stand behind a scope. -/
theorem exists_behind (chain : List ScopeId) (s : ScopeId) : ∃ rest, Behind chain s rest := by
  by_cases hs : s ∈ chain
  · obtain ⟨before, rest, h⟩ := List.append_of_mem hs
    exact ⟨rest, .inr ⟨before, h⟩⟩
  · exact ⟨[], .inl ⟨hs, rfl⟩⟩

/-- **A signal takes its effect** in a scheduler where it was just set: the scope waits on, or it is
over and passes its turn to the scopes behind it. -/
inductive Settles (chain : List ScopeId) (m : Scheduler) (s : ScopeId) :
    Scheduler → List ScopeEvent → Prop
  /-- The other signal is missing. -/
  | waits : ¬ m.isOver s → Settles chain m s m []
  /-- The scope is over. -/
  | passes {rest : List ScopeId} {v : Scheduler} {events : List ScopeEvent} :
      m.isOver s → Behind chain s rest → Passes m s rest v events → Settles chain m s v events

/-- The agenda after a signal is the effect of the signal. -/
theorem Woven.exists_settles (h : w.Woven links) (hm : w.Marks m s) (jobs : List Job) :
    ∃ v events, Settles (chainOf links) m s v events ∧
      m.run ((if m.isOver s then w.due s else []) ++ jobs) = emit events (v.run jobs) := by
  by_cases ho : m.isOver s
  · obtain ⟨rest, hb⟩ := exists_behind (chainOf links) s
    have hrest : m.Strung rest ∧ w.due s = m.turn s rest := by
      rcases hb with ⟨hs, rfl⟩ | ⟨before, hchain⟩
      · have hbare : w.hooksOf s = [] := h.loose s hs
        exact ⟨⟨List.nodup_nil, by simp, List.isChain_nil, by simp⟩, by simp [due, turn, hbare]⟩
      · have hstrung : w.Strung (s :: rest) := Strung.suffix before (hchain ▸ h.strung)
        have hs : s ∉ rest := (List.nodup_cons.mp hstrung.nodup).1
        refine ⟨hm.strung hs (Strung.suffix [s] hstrung), ?_⟩
        rw [hstrung.due_eq hm.before]
        cases rest with
        | nil => rfl
        | cons t rest => simp [turn, link, hm.kind]
    obtain ⟨v, events, hp, hrun⟩ := exists_passes (s := s) hrest.1 jobs
    exact ⟨v, events, .passes ho hb hp, by rw [if_pos ho, hrest.2, hrun]⟩
  · exact ⟨m, [], .waits ho, by rw [if_neg ho]; rfl⟩

/-- A scheduler evolves when a signal takes its effect. -/
theorem Settles.evolves (h : Settles chain m s v events) : m.Evolves v := by
  cases h with
  | waits => exact .refl m
  | passes _ _ hp => exact hp.evolves

/-- No scope changes its kind when a signal takes its effect. -/
theorem Settles.kind? (h : Settles chain m s v events) : v.kind? r = m.kind? r := by
  cases h with
  | waits => rfl
  | passes _ _ hp => exact hp.kind?

/-- No scope is ended when a signal takes its effect. -/
theorem Settles.isEnded (h : Settles chain m s v events) : v.isEnded r = m.isEnded r := by
  cases h with
  | waits => rfl
  | passes _ _ hp => exact hp.isEnded

/-- The current community scope and whether the scheduler is closed stay when a signal takes its
effect. -/
theorem Settles.settings (h : Settles chain m s v events) :
    v.community = m.community ∧ v.closed = m.closed ∧ v.owned = m.owned := by
  cases h with
  | waits => exact ⟨rfl, rfl, rfl⟩
  | passes _ _ hp => exact hp.settings

/-- A signal registers no hook. -/
theorem Settles.hooksOf_nil (h : Settles chain m s v events) (hr : m.hooksOf r = []) :
    v.hooksOf r = [] := by
  cases h with
  | waits => exact hr
  | passes _ _ hp => exact hp.hooksOf_nil hr

/-- No scope becomes pending when a signal takes its effect. -/
theorem Settles.pending_sublist (h : Settles chain m s v events) :
    v.pending.Sublist m.pending := by
  cases h with
  | waits => exact List.Sublist.refl _
  | passes _ _ hp => exact hp.pending_sublist

/-- A scope that is not pending any more when a signal has taken its effect is over. -/
theorem Settles.mem_pending (h : Settles chain m s v events) (hr : r ∈ m.pending) :
    r ∈ v.pending ∨ v.isOver r := by
  cases h with
  | waits => exact .inl hr
  | passes ho _ hp => exact hp.mem_pending ho hr

/-- **After a signal neighbours are linked again.** -/
theorem Settles.linked (h : Settles chain m s v events) (hm : w.Marks m s)
    (hn : chain.Nodup) (hl : chain.IsChain w.LinkedTo) : chain.IsChain v.LinkedTo := by
  cases h with
  | waits ho => exact hl.imp fun a b hab => hm.linkedTo_of_not_isOver ho hab
  | @passes rest v events ho hb hp =>
      rcases hb with ⟨hs, rfl⟩ | ⟨before, rfl⟩
      · cases hp
        exact hl.imp_of_mem_imp fun a b ha _ hab =>
          hm.linkedTo_of_ne (by rintro rfl; exact hs ha) hab
      · -- the scopes before `s` stay as they are, and the turn links those from `s` on
        obtain ⟨hbefore, hfrom, hjoin⟩ := List.isChain_append.mp hl
        obtain ⟨-, hn', hdisj⟩ := List.nodup_append.mp hn
        have hsr := (List.nodup_cons.mp hn').1
        have hkeep : ∀ a ∈ before, ∀ b, w.LinkedTo a b → v.LinkedTo a b := by
          intro a ha b hab
          have has : a ≠ s := fun e => hdisj a ha s List.mem_cons_self e
          have har : a ∉ rest := fun e => hdisj a ha a (List.mem_cons_of_mem _ e) rfl
          exact (hm.linkedTo_of_ne has hab).frame hp.kind? (hp.isOver_iff har) (hp.hooksOf_eq har)
            hp.isStarted
        refine List.isChain_append.mpr ⟨?_, ?_, ?_⟩
        · exact hbefore.imp_of_mem_imp fun a b ha _ hab => hkeep a ha b hab
        · refine hp.linked hn' ?_ ho (by rw [hm.hooks, if_pos ho])
          exact hfrom.tail.imp_of_mem_imp fun a b ha _ hab =>
            hm.linkedTo_of_ne (by rintro rfl; exact hsr ha) hab
        · intro a ha b hb
          exact hkeep a (List.mem_of_getLast? ha) b (hjoin a ha b hb)

/-- **A signal keeps the chain woven.** -/
theorem Woven.settles (h : w.Woven links) (hm : w.Marks m s) (hc : m.community = w.community)
    (hp : m.pending = w.pending) (hs : Settles (chainOf links) m s v events) : v.Woven links where
  strung := {
    nodup := h.strung.nodup
    known := fun r hr => by
      rw [known_iff_kind?, hs.kind?, hm.kind]
      exact known_iff_kind?.mp (h.strung.known r hr)
    linked := hs.linked hm h.strung.nodup h.strung.linked
    bare := fun r hr => hs.hooksOf_nil (hm.hooksOf_nil (h.strung.bare r hr)) }
  loose r hr := hs.hooksOf_nil (hm.hooksOf_nil (h.loose r hr))
  first := hs.evolves.started _ (hm.started _ h.first)
  current := by rw [h.current, hs.settings.1, hc]
  root := by rw [hs.kind?, hm.kind, h.root]
  users l hl := by rw [hs.kind?, hm.kind, h.users l hl]
  communities l hl := by rw [hs.kind?, hm.kind, h.communities l hl]
  pending := hs.pending_sublist.trans (by rw [hp]; exact h.pending)
  listed r hr := by
    rcases h.listed r hr with hmem | ho
    · exact hs.mem_pending (by rw [hp]; exact hmem)
    · refine .inr (hs.evolves.isOver ?_)
      have hrs : r ≠ s := by rintro rfl; exact hm.before ho
      exact (hm.isOver r hrs).mpr ho

/-! ### The order of the chain -/

/-- In a chain that is in order, nothing was started behind a scope that is not over. -/
theorem not_isStarted_behind (h : (s :: rest).IsChain w.InOrder) (ho : ¬ w.isOver s) :
    ∀ r ∈ rest, ¬ w.isStarted r := by
  induction rest generalizing s with
  | nil => simp
  | cons t rest ih =>
      obtain ⟨hst, htail⟩ := List.isChain_cons_cons.mp h
      have ht : ¬ w.isStarted t := fun h => ho (hst h)
      have hot : ¬ w.isOver t := fun h => ht (isOver_iff.mp h).1
      intro r hr
      rcases List.mem_cons.mp hr with rfl | hr
      · exact ht
      · exact ih htail hot r hr

/-- **A signal keeps the order of the chain**, and nothing is refused, unless it is the start of a
scope of the chain. -/
theorem Settles.inOrder (h : Settles chain m s v events) (hm : w.Marks m s) (hn : chain.Nodup)
    (hi : chain.IsChain w.InOrder) (hs : ∀ r ∈ chain, m.isStarted r → w.isStarted r) :
    chain.IsChain v.InOrder ∧ ∀ r, .refused r ∉ events := by
  have hover : ∀ r, w.isOver r → m.isOver r := by
    intro r hr
    have hrs : r ≠ s := by rintro rfl; exact hm.before hr
    exact (hm.isOver r hrs).mpr hr
  have hframe : ∀ a b, b ∈ chain → w.InOrder a b → m.InOrder a b := fun a b hb hab hst =>
    hover a (hab (hs b hb hst))
  cases h with
  | waits _ =>
      exact ⟨hi.imp_of_mem_imp fun a b _ hb hab => hframe a b hb hab, fun _ => List.not_mem_nil⟩
  | @passes rest v events ho hb hp =>
      rcases hb with ⟨-, rfl⟩ | ⟨before, rfl⟩
      · cases hp
        exact ⟨hi.imp_of_mem_imp fun a b _ hb hab => hframe a b hb hab, fun _ => List.not_mem_nil⟩
      · obtain ⟨hbefore, hfrom, hjoin⟩ := List.isChain_append.mp hi
        obtain ⟨-, hn', hdisj⟩ := List.nodup_append.mp hn
        obtain ⟨hturn, hevents⟩ := hp.inOrder hn' ho fun r hr hst =>
          not_isStarted_behind hfrom hm.before r hr (hs r (by simp [hr]) hst)
        have hkeep : ∀ a b, b ∉ rest → b ∈ before ++ s :: rest → w.InOrder a b → v.InOrder a b := by
          intro a b hbr hb hab hst
          exact hp.evolves.isOver (hframe a b hb hab ((hp.isStarted_iff hbr).mp hst))
        refine ⟨List.isChain_append.mpr ⟨?_, hturn, ?_⟩, hevents⟩
        · refine hbefore.imp_of_mem_imp fun a b _ hb hab => hkeep a b ?_ (by simp [hb]) hab
          exact fun e => hdisj b hb b (List.mem_cons_of_mem _ e) rfl
        · intro a ha b hb
          obtain rfl : s = b := by simpa using hb
          exact hkeep a s (List.nodup_cons.mp hn').1 (by simp) (hjoin a ha s rfl)

end Scheduler

end ScopedSql
