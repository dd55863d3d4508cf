import ScopedSql.Proofs.Scope.Requests

/-!
# Calls to a scheduler

Everything that is done to a scheduler is one of the calls of `Call`. `serve` is their common form,
and this module says of all of them at once what they do to the chain: `Sound.serve` that it stays
sound, that signals are never taken back, and which call ends which scope (`Served`), and
`Sound.serve_inOrder` that it stays in order, and nothing is refused, unless the call starts a scope
of the chain. The first chain is sound as well (`sound_new`).
-/

namespace ScopedSql

namespace Scheduler

variable {w u v : Scheduler} {s r : ScopeId} {links : Links}

/-- **A call** to a scheduler. -/
inductive Call where
  /-- Requests a user scope. -/
  | newScope
  /-- Creates a scope outside the chain. -/
  | create (kind : ScopeKind) (interval : Nat)
  /-- Starts a scope. -/
  | start (s : ScopeId)
  /-- Ends a scope. -/
  | finish (s : ScopeId)
  /-- Lets go of a scope. -/
  | abandon (s : ScopeId)
  /-- Lets time pass. -/
  | advance (ms : Nat)
  /-- Drops the last handle. -/
  | disown
  /-- Begins to close. -/
  | beginClose
  /-- Ends closing. -/
  | endClose
  /-- Asks for nothing. -/
  | nothing

/-- **Serves a call**: the scheduler after it, and what happened. -/
def serve (w : Scheduler) : Call → Scheduler × List ScopeEvent
  | .newScope => (w.newScope.1, w.newScope.2.2)
  | .create kind interval => ((w.create kind interval).1, [])
  | .start s =>
      match w.start s with
      | .ok r => r
      | .error _ => (w, [])
  | .finish s => w.finish s
  | .abandon s => (w.abandon s, [])
  | .advance ms => w.advance ms
  | .disown => (w.disown, [])
  | .beginClose => (w.beginClose.1, w.beginClose.2.2)
  | .endClose => (w.endClose, [])
  | .nothing => (w, [])

/-- **A call ends a scope**: by name, or because it is the current community scope when another one
takes its place or the scheduler closes. -/
def Call.Ends (w : Scheduler) (s : ScopeId) : Call → Prop
  | .finish r => s = r
  | .newScope => w.closed = false ∧ s = w.community
  | .beginClose => s = w.community
  | _ => False

/-- The link that a call puts behind the chain. -/
def Call.link? (w : Scheduler) : Call → Option (ScopeId × ScopeId)
  | .newScope => if w.closed then none else some w.newLink
  | _ => none

/-- Only requests put a link behind the chain. -/
theorem append_link? (c : Call) (hc : c ≠ .newScope) : links ++ (c.link? w).toList = links := by
  cases c with
  | newScope => exact absurd rfl hc
  | _ => exact List.append_nil links

/-! ### All calls -/

/-- **What a call does to the chain.** -/
structure Served (links : Links) (w : Scheduler) (c : Call) (v : Scheduler) : Prop where
  /-- The chain is sound, and has grown by the link of the call. -/
  sound : v.Sound (links ++ (c.link? w).toList)
  /-- Kinds stay and no signal is taken back. -/
  evolves : w.Evolves v
  /-- A scope is ended only by a call that ends it. -/
  ended : ∀ r, w.Known r → (v.isEnded r ↔ w.isEnded r ∨ c.Ends w r)
  /-- A scope that is created was not ended. -/
  created : ∀ r, v.Known r → ¬ w.Known r → ¬ v.isEnded r
  /-- A scheduler is closed by the call that begins to close it, for good. -/
  closed : v.closed ↔ w.closed ∨ c = .beginClose
  /-- The current community scope of a closed one stays, and nothing is put on its list. -/
  settled : w.closed → v.community = w.community ∧ v.pending.Sublist w.pending

/-- A call that links and ends no scope, and shows only in alarms and settings. -/
theorem Sound.served_of_agree {c : Call} (h : w.Sound links) (ha : w.Agree v)
    (hc : v.community = w.community) (hp : v.pending = w.pending) (hcl : v.closed = w.closed)
    (hl : c.link? w = none) (hn : ∀ r, ¬ c.Ends w r) (hb : c ≠ .beginClose) :
    Served links w c v where
  sound := by
    rw [hl, Option.toList_none, List.append_nil]
    exact h.agree ha hc hp hcl
  evolves := ha.evolves
  ended r _ := by simp [ha.ended, hn r]
  created r hk hn := absurd (ha.known.mp hk) hn
  closed := by simp [hcl, hb]
  settled _ := by rw [hp]; exact ⟨hc, .refl _⟩

/-- A request to a closed scheduler leaves the chain as it is. -/
theorem Sound.serve_newScope_closed (h : w.Sound links) (hc : w.closed) :
    Served links w .newScope (w.serve .newScope).1 := by
  have hl : Call.newScope.link? w = none := if_pos hc
  rw [serve, newScope_closed hc]
  refine ⟨?_, evolves_create.trans evolves_create, fun r hr => ?_, fun r hk hn => ?_,
    ⟨.inl, fun _ => hc⟩, fun _ => ⟨rfl, .refl _⟩⟩
  · rw [hl, Option.toList_none, List.append_nil]
    exact (h.create _ _).create _ _
  · rw [isEnded_grow]
    simp [Call.Ends, hc, ne_of_known hr]
  · rw [isEnded_grow]
    rintro ⟨-, hnext, hafter⟩
    exact ((known_grow.mp hk).resolve_left hn).elim hnext hafter

/-- **Where a chain was extended and the scope that was current is ended**, the new chain is sound. -/
theorem Extended.sound (hx : Extended w u) (h : w.Sound links) (hc : w.closed = false)
    (hf : Finished (links ++ [w.newLink]) u w.community v) : v.Sound (links ++ [w.newLink]) where
  toWoven := hf.woven
  superseded r hr hk := by
    rw [hf.kind] at hk
    rw [hf.community, hx.community, hf.ended]
    rw [chainOf_append] at hr
    rcases List.mem_append.mp hr with hr | hr
    · have hkr := h.strung.known r hr
      rw [hx.kind r hkr] at hk
      rw [hx.ended r hkr]
      exact .inr (h.superseded r hr hk).symm
    · obtain rfl | rfl : r = w.nextId ∨ r = w.afterNextId := by simpa [newLink] using hr
      · rw [hx.user.1] at hk
        cases hk
      · exact .inl rfl
  closed hv := by
    rw [hf.closed, hx.closed, hc] at hv
    cases hv

/-- **What a request does to the chain**: it grows by one link, unless the scheduler is closed. -/
theorem Sound.serve_newScope (h : w.Sound links) :
    Served links w .newScope (w.serve .newScope).1 := by
  cases hc : w.closed with
  | true => exact h.serve_newScope_closed hc
  | false =>
      have hl : Call.newScope.link? w = some w.newLink := if_neg (by simp [hc])
      obtain ⟨u, hx, heq⟩ := h.toWoven.exists_extended hc
      have hf := (hx.woven h.toWoven).finish w.community
      rw [serve, heq]
      refine ⟨?_, hx.evolves.trans hf.evolves, fun r hr => ?_, fun r hk hn => ?_, ?_, ?_⟩
      · rw [hl]
        exact hx.sound h hc hf
      · rw [hf.ended, hx.ended r hr]
        simp [Call.Ends, hc]
      · rw [hf.known] at hk
        have hne : r ≠ w.community := by
          rintro rfl
          exact hn (h.strung.known _ h.toWoven.current_mem)
        rw [hf.ended]
        rcases hx.new hk hn with rfl | rfl
        · exact fun he => he.elim hx.user.2.1 hne
        · exact fun he => he.elim hx.next.2.1 hne
      · simp [hf.closed, hx.closed, hc]
      · simp [hc]

/-- A request to an open scheduler returns the user scope and makes the community scope current. -/
theorem Woven.newScope_ok (h : w.Woven links) (hc : w.closed = false) :
    w.newScope.2.1 = .ok w.nextId ∧ w.newScope.1.community = w.afterNextId := by
  obtain ⟨u, hx, heq⟩ := h.exists_extended hc
  rw [heq]
  refine ⟨rfl, ?_⟩
  rw [((hx.woven h).finish w.community).community, hx.community]

/-- **What a start does to the chain.** -/
theorem Sound.serve_start (h : w.Sound links) (s : ScopeId) :
    Served links w (.start s) (w.serve (.start s)).1 := by
  rcases h.toWoven.start_cases s with ⟨-, heq⟩ | ⟨-, heq⟩ | ⟨hk, hs, v, events, hset, heq⟩
  · rw [serve, heq]
    exact h.served_of_agree (.of_scopes rfl) rfl rfl rfl rfl (fun _ => id) (by simp)
  · rw [serve, heq]
    exact h.served_of_agree (.of_scopes rfl) rfl rfl rfl rfl (fun _ => id) (by simp)
  · rw [serve, heq]
    have hm := marks_markStarted hk hs
    obtain ⟨hcommunity, hclosed, -⟩ := hset.settings
    replace hcommunity : v.community = w.community := hcommunity
    replace hclosed : v.closed = w.closed := hclosed
    have hended : ∀ r, v.isEnded r = w.isEnded r := fun r => by
      rw [hset.isEnded, isEnded_markStarted]
    have hknown : ∀ r, v.Known r ↔ w.Known r := fun r => by
      rw [known_iff_kind?, hset.kind?, hm.kind, known_iff_kind?]
    refine ⟨?_, evolves_markStarted.trans hset.evolves, ?_,
      fun r hk hn => absurd ((hknown r).mp hk) hn, by simp [hclosed],
      fun _ => ⟨hcommunity, hset.pending_sublist⟩⟩
    · rw [append_link? (.start s) (by simp)]
      refine ⟨h.toWoven.settles hm rfl rfl hset, fun r hr hkr => ?_, fun hv => ?_⟩
      · rw [hset.kind?, hm.kind] at hkr
        rw [hcommunity, hended]
        exact h.superseded r hr hkr
      · rw [hclosed] at hv
        rw [hcommunity, hended]
        exact h.closed hv
    · intro r _
      simp [hended, Call.Ends]

/-- **What an end does to the chain.** -/
theorem Sound.serve_finish (h : w.Sound links) (s : ScopeId) :
    Served links w (.finish s) (w.serve (.finish s)).1 := by
  have hf := h.toWoven.finish s
  refine ⟨?_, hf.evolves, fun r _ => hf.ended r, fun r hk hn => absurd (hf.known.mp hk) hn, ?_,
    fun _ => ⟨hf.community, hf.pending⟩⟩
  · rw [append_link? (.finish s) (by simp)]
    exact hf.sound h
  · simp [serve, hf.closed]

/-- Closing ends the current community scope. -/
theorem Sound.serve_beginClose (h : w.Sound links) :
    Served links w .beginClose (w.serve .beginClose).1 := by
  have ha : w.Agree { w with closed := true } := agree_closing
  have hwoven := h.toWoven.closing
  have hf := hwoven.finish w.community
  have hv : w.serve .beginClose = { w with closed := true }.finish w.community := rfl
  rw [hv]
  refine ⟨?_, ha.evolves.trans hf.evolves, fun r _ => ?_,
    fun r hk hn => absurd (ha.known.mp (hf.known.mp hk)) hn, ?_,
    fun _ => ⟨hf.community, hf.pending⟩⟩
  · rw [append_link? .beginClose (by simp)]
    refine ⟨hf.woven, fun r hr hk => ?_, fun _ => ?_⟩
    · rw [hf.kind, ha.kind] at hk
      rw [hf.community, hf.ended, ha.ended]
      exact (h.superseded r hr hk).imp_right .inl
    · rw [hf.community, hf.ended]
      exact .inr rfl
  · rw [hf.ended, ha.ended]
    rfl
  · simp [hf.closed]

/-- Where all user scopes are over, the list of pending ones is given up without a loss. -/
theorem Sound.serve_endClose (h : w.Sound links) (ho : ∀ s ∈ usersOf links, w.isOver s) :
    Served links w .endClose (w.serve .endClose).1 := by
  have ha : w.Agree w.endClose := .of_scopes rfl
  refine ⟨?_, ha.evolves, fun r _ => by simp [serve, ha.ended, Call.Ends],
    fun r hk hn => absurd (ha.known.mp hk) hn, by simp [serve, endClose],
    fun _ => ⟨rfl, List.nil_sublist _⟩⟩
  rw [serve, append_link? .endClose (by simp)]
  exact {
    strung := ha.strung h.strung
    loose := h.loose
    first := h.first
    current := h.current
    root := h.root
    users := h.users
    communities := h.communities
    pending := List.nil_sublist _
    listed := fun s hs => .inr (by rw [ha.isOver]; exact ho s hs)
    superseded := h.superseded
    closed := h.closed }

/-- Creating a scope of its own leaves the chain alone. -/
theorem Sound.serve_create (h : w.Sound links) (kind : ScopeKind) (interval : Nat) :
    Served links w (.create kind interval) (w.serve (.create kind interval)).1 := by
  refine ⟨?_, evolves_create, fun r hr => ?_, fun r hk hn => ?_, ?_, fun _ => ⟨rfl, .refl _⟩⟩
  · rw [append_link? (.create kind interval) (by simp)]
    exact h.create kind interval
  · rw [serve, isEnded_create]
    simp [Call.Ends, ne_of_known hr]
  · rw [serve, known_create] at hk
    rw [serve, isEnded_create]
    exact fun he => he.2 (hk.resolve_left hn)
  · simp [serve, Scheduler.create]

/-- **Every call keeps the chain sound**, if closing ends only where all user scopes are over. -/
theorem Sound.serve (h : w.Sound links) (c : Call)
    (hc : c = .endClose → ∀ s ∈ usersOf links, w.isOver s) :
    Served links w c (w.serve c).1 := by
  cases c with
  | newScope => exact h.serve_newScope
  | create kind interval => exact h.serve_create kind interval
  | start s => exact h.serve_start s
  | finish s => exact h.serve_finish s
  | abandon s => exact h.served_of_agree agree_abandon rfl rfl rfl rfl (fun _ => id) (by simp)
  | advance ms =>
      exact h.served_of_agree (agree_advance ms) rfl rfl rfl rfl (fun _ => id) (by simp)
  | disown => exact h.served_of_agree (.of_scopes rfl) rfl rfl rfl rfl (fun _ => id) (by simp)
  | beginClose => exact h.serve_beginClose
  | endClose => exact h.serve_endClose (hc rfl)
  | nothing => exact h.served_of_agree (.of_scopes rfl) rfl rfl rfl rfl (fun _ => id) (by simp)

/-! ### The order of the chain -/

/-- All that happens while time passes is that alarms ring. -/
theorem exists_rang {ms : Nat} {e : ScopeEvent} (he : e ∈ (w.advance ms).2) :
    ∃ s time seconds, e = .rang s time seconds := by
  obtain ⟨⟨x, i⟩, -, hx⟩ := List.mem_flatMap.mp he
  obtain ⟨⟨time, seconds⟩, -, h⟩ := List.mem_map.mp hx
  exact ⟨_, _, _, h.symm⟩

/-- A scope outside the chain changes nothing in its order. -/
theorem Woven.create_inOrder (h : w.Woven links) (hi : (chainOf links).IsChain w.InOrder)
    (kind : ScopeKind) (interval : Nat) :
    (chainOf links).IsChain (w.create kind interval).1.InOrder := by
  refine hi.imp_of_mem_imp fun a b ha _ hab hst => ?_
  have hne : a ≠ w.nextId := by rintro rfl; exact h.nextId_not_mem ha
  rw [isStarted_create] at hst
  have hover := isOver_iff.mp (hab hst)
  rw [isOver_iff, isStarted_create, isEnded_create]
  exact ⟨hover.1, hover.2, hne⟩

/-- **A request keeps the chain in order**, and no start is refused in it. -/
theorem Sound.newScope_inOrder (h : w.Sound links) (hi : (chainOf links).IsChain w.InOrder) :
    (chainOf (links ++ (Call.newScope.link? w).toList)).IsChain w.newScope.1.InOrder ∧
      ∀ r, .refused r ∉ w.newScope.2.2 := by
  cases hc : w.closed with
  | true =>
      have hl : Call.newScope.link? w = none := if_pos hc
      rw [hl, newScope_closed hc, Option.toList_none, List.append_nil]
      refine ⟨?_, fun _ => List.not_mem_nil⟩
      exact (h.toWoven.create _ _).create_inOrder (h.toWoven.create_inOrder hi _ _) _ _
  | false =>
      have hl : Call.newScope.link? w = some w.newLink := if_neg (by simp [hc])
      obtain ⟨u, hx, heq⟩ := h.toWoven.exists_extended hc
      obtain ⟨hchain, hevents⟩ := (hx.woven h.toWoven).finish_inOrder
        (hx.inOrder h.toWoven hi) w.community
      rw [hl, heq]
      exact ⟨hchain, fun r hr => by simp [refused_not_mem_extension, hevents r] at hr⟩

/-- A start outside the chain keeps the order of the chain, and nothing is refused. -/
theorem Woven.start_inOrder (h : w.Woven links) (hi : (chainOf links).IsChain w.InOrder)
    (hs : s ∉ chainOf links) :
    (chainOf links).IsChain (w.serve (.start s)).1.InOrder ∧
      ∀ r, .refused r ∉ (w.serve (.start s)).2 := by
  rcases h.start_cases s with ⟨-, heq⟩ | ⟨-, heq⟩ | ⟨hk, hns, v, events, hset, heq⟩
  · rw [serve, heq]
    exact ⟨hi, fun _ => List.not_mem_nil⟩
  · rw [serve, heq]
    exact ⟨hi, fun _ => List.not_mem_nil⟩
  · rw [serve, heq]
    obtain ⟨hchain, hevents⟩ := hset.inOrder (marks_markStarted hk hns) h.strung.nodup hi
      fun r hr hst => by
        have hne : r ≠ s := by rintro rfl; exact hs hr
        simpa [hne] using hst
    exact ⟨hchain, fun r hr => by simp [hevents r] at hr⟩

/-- **Every call keeps the order of the chain**, and nothing is refused, unless it is the start of a
scope of the chain. -/
theorem Sound.serve_inOrder (h : w.Sound links) (hi : (chainOf links).IsChain w.InOrder) (c : Call)
    (hc : ∀ s, c = .start s → s ∉ chainOf links) :
    (chainOf (links ++ (c.link? w).toList)).IsChain (w.serve c).1.InOrder ∧
      ∀ r, .refused r ∉ (w.serve c).2 := by
  have hkeep : ∀ {v : Scheduler}, w.Agree v →
      (chainOf (links ++ [])).IsChain v.InOrder ∧ ∀ r, .refused r ∉ ([] : List ScopeEvent) :=
    fun ha => ⟨by rw [List.append_nil]; exact ha.isChain_inOrder hi, fun _ => List.not_mem_nil⟩
  cases c with
  | newScope => exact h.newScope_inOrder hi
  | create kind interval =>
      rw [append_link? (.create kind interval) (by simp)]
      exact ⟨h.toWoven.create_inOrder hi kind interval, fun _ => List.not_mem_nil⟩
  | start s =>
      rw [append_link? (.start s) (by simp)]
      exact h.toWoven.start_inOrder hi (hc s rfl)
  | finish s =>
      rw [append_link? (.finish s) (by simp)]
      exact h.toWoven.finish_inOrder hi s
  | abandon s => exact hkeep agree_abandon
  | advance ms =>
      rw [append_link? (.advance ms) (by simp)]
      refine ⟨(agree_advance ms).isChain_inOrder hi, fun r hr => ?_⟩
      obtain ⟨s, time, seconds, h⟩ := exists_rang hr
      cases h
  | disown => exact hkeep (.of_scopes rfl)
  | beginClose =>
      rw [append_link? .beginClose (by simp)]
      exact h.toWoven.closing.finish_inOrder (agree_closing.isChain_inOrder hi) w.community
  | endClose => exact hkeep (.of_scopes rfl)
  | nothing => exact hkeep (.of_scopes rfl)

/-! ### The first chain -/

/-- A scheduler with its first community scope, which was not started yet. -/
def unborn (interval : Nat) (timed : Bool) : Scheduler :=
  { scopes := [Scope.fresh .community interval], community := ⟨0⟩, pending := [],
    closed := false, owned := true, interval, clock := 0, timed }

/-- The first scope is there from the beginning. -/
theorem known_unborn {interval : Nat} {timed : Bool} : (unborn interval timed).Known ⟨0⟩ :=
  Nat.one_pos

/-- A new scheduler has started its first scope. -/
theorem new_eq (interval : Nat) (timed : Bool) :
    new interval timed = ((unborn interval timed).markStarted ⟨0⟩, [.started ⟨0⟩]) := by
  have hs : ¬ (unborn interval timed).isStarted ⟨0⟩ := Bool.false_ne_true
  have he : ¬ (unborn interval timed).isEnded ⟨0⟩ := Bool.false_ne_true
  have hrun := run_start known_unborn hs []
  rw [if_neg he, List.append_nil, run_nil] at hrun
  exact hrun

/-- **The first chain** has one scope, which is started. -/
theorem sound_new (interval : Nat) (timed : Bool) : (new interval timed).1.Sound [] := by
  have hbare : ∀ s, ((unborn interval timed).markStarted ⟨0⟩).hooksOf s = [] := by
    have hb : ∀ s, (unborn interval timed).hooksOf s = [] := by
      rintro ⟨_ | i⟩ <;> rfl
    intro s
    rw [hooksOf_markStarted, hb, ite_self]
  rw [new_eq]
  constructor
  case toWoven =>
    constructor
    case strung =>
      refine ⟨List.pairwise_singleton _ _, fun r hr => ?_, List.isChain_singleton _,
        fun r _ => hbare r⟩
      obtain rfl : r = ⟨0⟩ := by simpa [chainOf] using hr
      exact known_markStarted.mpr known_unborn
    case loose => exact fun s _ => hbare s
    case first => exact isStarted_markStarted.mpr (.inr ⟨rfl, known_unborn⟩)
    case current => rfl
    case root => rw [kind?_markStarted]; rfl
    case users => intro l hl; cases hl
    case communities => intro l hl; cases hl
    case pending => exact List.nil_sublist _
    case listed => intro s hs; cases hs
  case superseded =>
    intro s hs _
    obtain rfl : s = ⟨0⟩ := by simpa [chainOf] using hs
    exact .inl rfl
  case closed => intro hc; cases hc

end Scheduler

end ScopedSql
