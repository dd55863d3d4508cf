import ScopedSql.Scope.Clock

/-!
# What is seen of a scope

The laws of the chain speak of a scope through its kind, its two signals and the hooks that it still
holds. This module says how each basic change of a scheduler shows in them: a start (`markStarted`),
an end (`markEnded`), a hook (`addHook`), a new scope, and the changes that show in none of them
(`Agree`).

A scope is *over* when both signals are set. `Evolves` is what every change respects: kinds stay, and
signals are never taken back.
-/

namespace ScopedSql

namespace Scheduler

/-- There is such a scope. -/
def Known (w : Scheduler) (s : ScopeId) : Prop := s.index < w.scopes.length

/-- The kind of a scope. -/
def kind? (w : Scheduler) (s : ScopeId) : Option ScopeKind := (w.scope? s).map Scope.kind

/-- The hooks that a scope holds. -/
def hooksOf (w : Scheduler) (s : ScopeId) : List Hook := ((w.scope? s).map Scope.hooks).getD []

/-- Whether a scope was started and ended. -/
def isOver (w : Scheduler) (s : ScopeId) : Bool := w.isStarted s && w.isEnded s

/-- **The observed state of a scope.** -/
def stateOf (w : Scheduler) (s : ScopeId) : ScopeState :=
  ((w.scope? s).map Scope.state).getD .pending

variable {w v u : Scheduler} {s r : ScopeId} {x : Scope}

/-- A scope is there exactly if it is found. -/
theorem known_iff : w.Known s ↔ ∃ x, w.scope? s = some x := by
  rw [Known, ← Option.isSome_iff_exists, scope?, isSome_getElem?]

/-- A scope is over exactly if it was started and ended. -/
theorem isOver_iff : w.isOver s ↔ w.isStarted s ∧ w.isEnded s := by
  rw [isOver, Bool.and_eq_true]

/-- The observed state is told by the signals. -/
theorem stateOf_eq (h : w.Known s) :
    w.stateOf s =
      if w.isEnded s then .ended else if w.isStarted s then .started else .pending := by
  obtain ⟨x, hx⟩ := known_iff.mp h
  simp [stateOf, isEnded, isStarted, hx, Scope.state]

/-- A scope has a kind exactly if it is there. -/
theorem known_iff_kind? : w.Known s ↔ (w.kind? s).isSome := by
  rw [known_iff, kind?, Option.isSome_map, Option.isSome_iff_exists]

/-- A scope that was started is there. -/
theorem known_of_isStarted (h : w.isStarted s) : w.Known s := by
  rw [known_iff]
  cases hx : w.scope? s with
  | none => simp [isStarted, hx] at h
  | some x => exact ⟨x, rfl⟩

/-- A scope that is not there counts as ended, so one that does not is there. -/
theorem known_of_not_isEnded (h : ¬ w.isEnded s) : w.Known s := by
  rw [known_iff]
  cases hx : w.scope? s with
  | none => simp [isEnded, hx] at h
  | some x => exact ⟨x, rfl⟩

/-- A scope that is not there holds no hooks. -/
theorem hooksOf_of_not_known (h : ¬ w.Known s) : w.hooksOf s = [] := by
  rw [known_iff, not_exists] at h
  rw [hooksOf, Option.eq_none_iff_forall_ne_some.mpr h]
  rfl

/-- The scopes of a list that are known are over where all of the list are. -/
theorem isOver_of_allOver {scopes : List ScopeId}
    (h : w.allOver scopes) (hs : s ∈ scopes) (hk : w.Known s) : w.isOver s := by
  obtain ⟨x, hx⟩ := known_iff.mp hk
  have ho := List.all_eq_true.mp h s hs
  simpa [isOver, isStarted, isEnded, hx, Scope.isOver] using ho

/-- Some scopes are over if each of them is. -/
theorem allOver_of_isOver {scopes : List ScopeId}
    (h : ∀ s ∈ scopes, w.isOver s) : w.allOver scopes := by
  refine List.all_eq_true.mpr fun s hs => ?_
  have ho := isOver_iff.mp (h s hs)
  obtain ⟨x, hx⟩ := known_iff.mp (known_of_isStarted ho.1)
  simpa [isStarted, isEnded, hx, Scope.isOver] using ho

/-! ### One scope changes -/

/-- Changing a scope changes no other one. -/
theorem scope?_modify (f : Scope → Scope) :
    (w.modify s f).scope? r = if r = s then (w.scope? r).map f else w.scope? r := by
  obtain ⟨i⟩ := s
  obtain ⟨j⟩ := r
  simp only [scope?, modify, List.getElem?_modify, ScopeId.mk.injEq, eq_comm (a := j)]
  split <;> simp

/-- Functions that agree on a scope change it in the same way. -/
theorem modify_congr {f g : Scope → Scope} (hx : w.scope? s = some x) (h : f x = g x) :
    w.modify s f = w.modify s g := by
  have key : w.scopes.modify s.index f = w.scopes.modify s.index g := by
    refine List.ext_getElem? fun i => ?_
    rw [List.getElem?_modify, List.getElem?_modify]
    by_cases hi : s.index = i
    · subst hi
      rw [scope?] at hx
      rw [hx]
      simp [h]
    · simp [hi]
  rw [modify, modify, key]

/-- What a change of one scope shows in a part of the scopes. -/
theorem map_scope?_modify {α : Type} (f : Scope → Scope) (p : Scope → α) :
    ((w.modify s f).scope? r).map p =
      if r = s then (w.scope? r).map fun x => p (f x) else (w.scope? r).map p := by
  rw [scope?_modify]
  split
  · rw [Option.map_map]; rfl
  · rfl

/-- A scope with the start signal set: its hooks are taken off if it is over now. -/
def opening (w : Scheduler) (x : Scope) : Scope :=
  if x.ended then { x with started := true, hooks := [] }
  else { x with started := true, alarm := w.alarmFor x }

/-- A scope with the end signal set: its hooks are taken off if it is over now. -/
def closing (x : Scope) : Scope :=
  if x.started then { x with ended := true, alarm := none, hooks := [] }
  else { x with ended := true, alarm := none }

@[simp] theorem opening_kind : (w.opening x).kind = x.kind := by
  unfold opening; split <;> rfl

@[simp] theorem opening_started : (w.opening x).started = true := by
  unfold opening; split <;> rfl

@[simp] theorem opening_ended : (w.opening x).ended = x.ended := by
  unfold opening; split <;> rfl

@[simp] theorem opening_hooks : (w.opening x).hooks = if x.ended then [] else x.hooks := by
  unfold opening; split <;> rfl

@[simp] theorem closing_kind : (closing x).kind = x.kind := by
  unfold closing; split <;> rfl

@[simp] theorem closing_started : (closing x).started = x.started := by
  unfold closing; split <;> rfl

@[simp] theorem closing_ended : (closing x).ended = true := by
  unfold closing; split <;> rfl

@[simp] theorem closing_hooks : (closing x).hooks = if x.started then [] else x.hooks := by
  unfold closing; split <;> rfl

/-- Sets the start signal of a scope. -/
def markStarted (w : Scheduler) (s : ScopeId) : Scheduler := w.modify s w.opening

/-- Sets the end signal of a scope. -/
def markEnded (w : Scheduler) (s : ScopeId) : Scheduler := w.modify s closing

/-- Gives a scope one more hook. -/
def addHook (w : Scheduler) (s : ScopeId) (h : Hook) : Scheduler :=
  w.modify s fun x => { x with hooks := x.hooks ++ [h] }

@[simp] theorem kind?_markStarted : (w.markStarted s).kind? r = w.kind? r := by
  rw [kind?, markStarted, map_scope?_modify]
  simp [kind?]

@[simp] theorem isStarted_markStarted :
    (w.markStarted s).isStarted r ↔ w.isStarted r ∨ r = s ∧ w.Known s := by
  rw [isStarted, markStarted, map_scope?_modify, isStarted, known_iff]
  by_cases h : r = s
  · subst h
    cases w.scope? r <;> simp
  · simp [h]

@[simp] theorem isEnded_markStarted : (w.markStarted s).isEnded r = w.isEnded r := by
  rw [isEnded, markStarted, map_scope?_modify]
  simp [isEnded]

@[simp] theorem hooksOf_markStarted :
    (w.markStarted s).hooksOf r = if r = s ∧ w.isEnded s then [] else w.hooksOf r := by
  rw [hooksOf, markStarted, map_scope?_modify, hooksOf, isEnded]
  by_cases h : r = s
  · subst h
    cases w.scope? r with
    | none => simp
    | some x => cases hx : x.ended <;> simp [hx]
  · simp [h]

@[simp] theorem kind?_markEnded : (w.markEnded s).kind? r = w.kind? r := by
  rw [kind?, markEnded, map_scope?_modify]
  simp [kind?]

@[simp] theorem isStarted_markEnded : (w.markEnded s).isStarted r = w.isStarted r := by
  rw [isStarted, markEnded, map_scope?_modify]
  simp [isStarted]

@[simp] theorem isEnded_markEnded : (w.markEnded s).isEnded r ↔ w.isEnded r ∨ r = s := by
  rw [isEnded, markEnded, map_scope?_modify, isEnded]
  by_cases h : r = s
  · subst h
    cases w.scope? r <;> simp
  · simp [h]

@[simp] theorem hooksOf_markEnded :
    (w.markEnded s).hooksOf r = if r = s ∧ w.isStarted s then [] else w.hooksOf r := by
  rw [hooksOf, markEnded, map_scope?_modify, hooksOf, isStarted]
  by_cases h : r = s
  · subst h
    cases w.scope? r with
    | none => simp
    | some x => cases hx : x.started <;> simp [hx]
  · simp [h]

@[simp] theorem kind?_addHook {h : Hook} : (w.addHook s h).kind? r = w.kind? r := by
  rw [kind?, addHook, map_scope?_modify]
  simp [kind?]

@[simp] theorem isStarted_addHook {h : Hook} : (w.addHook s h).isStarted r = w.isStarted r := by
  rw [isStarted, addHook, map_scope?_modify]
  simp [isStarted]

@[simp] theorem isEnded_addHook {h : Hook} : (w.addHook s h).isEnded r = w.isEnded r := by
  rw [isEnded, addHook, map_scope?_modify]
  simp [isEnded]

/-- A hook is put behind the others of its scope. -/
theorem hooksOf_addHook {h : Hook} (hs : w.Known s) :
    (w.addHook s h).hooksOf r = if r = s then w.hooksOf r ++ [h] else w.hooksOf r := by
  rw [hooksOf, addHook, map_scope?_modify, hooksOf]
  by_cases hr : r = s
  · subst hr
    obtain ⟨x, hx⟩ := known_iff.mp hs
    simp [hx]
  · simp [hr]

@[simp] theorem known_markStarted : (w.markStarted s).Known r ↔ w.Known r := by
  simp [known_iff_kind?]

@[simp] theorem known_markEnded : (w.markEnded s).Known r ↔ w.Known r := by
  simp [known_iff_kind?]

@[simp] theorem known_addHook {h : Hook} : (w.addHook s h).Known r ↔ w.Known r := by
  simp [known_iff_kind?]

/-- A start makes a scope over exactly if it was ended before. -/
theorem isOver_markStarted :
    (w.markStarted s).isOver r ↔ w.isOver r ∨ r = s ∧ w.Known s ∧ w.isEnded s := by
  rw [isOver_iff, isStarted_markStarted, isEnded_markStarted, isOver_iff]
  constructor
  · rintro ⟨h | ⟨rfl, hk⟩, he⟩
    · exact .inl ⟨h, he⟩
    · exact .inr ⟨rfl, hk, he⟩
  · rintro (⟨hs, he⟩ | ⟨rfl, hk, he⟩)
    · exact ⟨.inl hs, he⟩
    · exact ⟨.inr ⟨rfl, hk⟩, he⟩

/-- An end makes a scope over exactly if it was started before. -/
theorem isOver_markEnded : (w.markEnded s).isOver r ↔ w.isOver r ∨ r = s ∧ w.isStarted s := by
  rw [isOver_iff, isStarted_markEnded, isEnded_markEnded, isOver_iff]
  constructor
  · rintro ⟨hs, h | rfl⟩
    · exact .inl ⟨hs, h⟩
    · exact .inr ⟨rfl, hs⟩
  · rintro (⟨hs, he⟩ | ⟨rfl, hs⟩)
    · exact ⟨hs, .inl he⟩
    · exact ⟨hs, .inr rfl⟩

/-! ### A scope is created -/

/-- The identity of the next scope. -/
def nextId (w : Scheduler) : ScopeId := ⟨w.scopes.length⟩

/-- The next scope is not there yet. -/
theorem not_known_nextId : ¬ w.Known w.nextId := Nat.lt_irrefl _

/-- A scope that is created is found, and all others are found as before. -/
theorem scope?_create (kind : ScopeKind) (interval : Nat) :
    (w.create kind interval).1.scope? r =
      if r = w.nextId then some (Scope.fresh kind interval) else w.scope? r := by
  obtain ⟨j⟩ := r
  simp only [scope?, create, nextId, ScopeId.mk.injEq, List.getElem?_append, List.getElem?_cons,
    List.getElem?_nil]
  grind

@[simp] theorem kind?_create {kind : ScopeKind} {interval : Nat} :
    (w.create kind interval).1.kind? r = if r = w.nextId then some kind else w.kind? r := by
  rw [kind?, scope?_create]
  split <;> rfl

@[simp] theorem isStarted_create {kind : ScopeKind} {interval : Nat} :
    (w.create kind interval).1.isStarted r = w.isStarted r := by
  rw [isStarted, scope?_create]
  split
  · subst r
    have := mt known_of_isStarted (not_known_nextId (w := w))
    simpa [Scope.fresh] using this
  · rfl

@[simp] theorem isEnded_create {kind : ScopeKind} {interval : Nat} :
    (w.create kind interval).1.isEnded r ↔ w.isEnded r ∧ r ≠ w.nextId := by
  rw [isEnded, scope?_create]
  split
  · simp [Scope.fresh, *]
  · simp [isEnded, *]

@[simp] theorem hooksOf_create {kind : ScopeKind} {interval : Nat} :
    (w.create kind interval).1.hooksOf r = w.hooksOf r := by
  rw [hooksOf, scope?_create]
  split
  · subst r
    rw [hooksOf_of_not_known not_known_nextId]
    rfl
  · rfl

@[simp] theorem known_create {kind : ScopeKind} {interval : Nat} :
    (w.create kind interval).1.Known r ↔ w.Known r ∨ r = w.nextId := by
  rw [known_iff_kind?, kind?_create, known_iff_kind?]
  split <;> simp [*]

/-- Creating a scope makes none over. -/
theorem isOver_of_isOver_create {kind : ScopeKind} {interval : Nat}
    (h : (w.create kind interval).1.isOver r) : w.isOver r := by
  rw [isOver_iff, isStarted_create, isEnded_create] at h
  exact isOver_iff.mpr ⟨h.1, h.2.1⟩

/-! ### Nothing of this changes -/

/-- **Two schedulers agree**: nothing of this module tells their scopes apart. -/
structure Agree (w v : Scheduler) : Prop where
  /-- Kinds are the same. -/
  kind : ∀ s, v.kind? s = w.kind? s
  /-- Start signals are the same. -/
  started : ∀ s, v.isStarted s = w.isStarted s
  /-- End signals are the same. -/
  ended : ∀ s, v.isEnded s = w.isEnded s
  /-- Hooks are the same. -/
  hooks : ∀ s, v.hooksOf s = w.hooksOf s

/-- Schedulers with the same scopes agree. -/
theorem Agree.of_scopes (h : v.scopes = w.scopes) : w.Agree v := by
  have hs : v.scope? = w.scope? := by
    funext s
    rw [scope?, scope?, h]
  constructor <;> intro s
  · rw [kind?, kind?, hs]
  · rw [isStarted, isStarted, hs]
  · rw [isEnded, isEnded, hs]
  · rw [hooksOf, hooksOf, hs]

/-- Schedulers agree if each scope of the one comes from the same scope of the other by a change of
its alarm. -/
theorem Agree.of_alarms
    (h : ∀ s, ∃ f : Scope → Option Alarm,
      v.scope? s = (w.scope? s).map fun x => { x with alarm := f x }) :
    w.Agree v := by
  constructor <;> intro s <;> obtain ⟨f, hf⟩ := h s
  · rw [kind?, hf, Option.map_map]; rfl
  · rw [isStarted, hf, Option.map_map]; rfl
  · rw [isEnded, hf, Option.map_map]; rfl
  · rw [hooksOf, hf, Option.map_map]; rfl

/-- Where two schedulers agree, the same scopes are there. -/
theorem Agree.known (h : w.Agree v) : v.Known s ↔ w.Known s := by
  rw [known_iff_kind?, h.kind, known_iff_kind?]

/-- Where two schedulers agree, the same scopes are over. -/
theorem Agree.isOver (h : w.Agree v) : v.isOver s = w.isOver s := by
  rw [Scheduler.isOver, Scheduler.isOver, h.started, h.ended]

/-- Letting go of a scope only stops its alarm. -/
theorem agree_abandon : w.Agree (w.abandon s) := by
  refine .of_alarms fun r => ?_
  rw [abandon, scope?_modify]
  by_cases h : r = s
  · exact ⟨fun _ => none, if_pos h⟩
  · exact ⟨Scope.alarm, by rw [if_neg h]; exact (congrFun Option.map_id _).symm⟩

/-- Ringing changes nothing of a scope but its alarm. -/
theorem ringUntil_eq (limit : Nat) (x : Scope) :
    (x.ringUntil limit).1 = { x with alarm := (x.ringUntil limit).1.alarm } := by
  obtain ⟨kind, interval, started, ended, hooks, alarm⟩ := x
  cases alarm <;> rfl

/-- Time only moves alarms. -/
theorem agree_advance (ms : Nat) : w.Agree (w.advance ms).1 := by
  refine .of_alarms fun r => ⟨fun x => (x.ringUntil (w.clock + ms)).1.alarm, ?_⟩
  rw [advance, scope?, List.getElem?_map]
  congr 1
  funext x
  exact ringUntil_eq _ x

/-! ### What every change respects -/

/-- **A scheduler evolves**: scopes keep their kinds, and no signal is taken back. -/
structure Evolves (w v : Scheduler) : Prop where
  /-- Kinds stay. -/
  kind : ∀ s, w.Known s → v.kind? s = w.kind? s
  /-- What was started stays so. -/
  started : ∀ s, w.isStarted s → v.isStarted s
  /-- What was ended stays so. -/
  ended : ∀ s, w.Known s → w.isEnded s → v.isEnded s

/-- A scheduler that stays as it is evolves. -/
theorem Evolves.refl (w : Scheduler) : w.Evolves w :=
  ⟨fun _ _ => rfl, fun _ => id, fun _ _ => id⟩

/-- When a scheduler evolves its scopes stay. -/
theorem Evolves.known (h : w.Evolves v) (hs : w.Known s) : v.Known s := by
  rw [known_iff_kind?, h.kind s hs]
  exact known_iff_kind?.mp hs

/-- A scheduler that evolves and evolves again evolves. -/
theorem Evolves.trans (h₁ : w.Evolves v) (h₂ : v.Evolves u) : w.Evolves u where
  kind s hs := (h₂.kind s (h₁.known hs)).trans (h₁.kind s hs)
  started s hs := h₂.started s (h₁.started s hs)
  ended s hk hs := h₂.ended s (h₁.known hk) (h₁.ended s hk hs)

/-- A scope that is over stays so. -/
theorem Evolves.isOver (h : w.Evolves v) (hs : w.isOver s) : v.isOver s := by
  rw [isOver_iff] at hs ⊢
  exact ⟨h.started s hs.1, h.ended s (known_of_isStarted hs.1) hs.2⟩

/-- Schedulers that agree evolve into each other. -/
theorem Agree.evolves (h : w.Agree v) : w.Evolves v where
  kind s _ := h.kind s
  started s hs := by rw [h.started]; exact hs
  ended s _ hs := by rw [h.ended]; exact hs

/-- A scheduler evolves with a start. -/
theorem evolves_markStarted : w.Evolves (w.markStarted s) where
  kind _ _ := kind?_markStarted
  started _ h := isStarted_markStarted.mpr (.inl h)
  ended _ _ h := by rw [isEnded_markStarted]; exact h

/-- A scheduler evolves with an end. -/
theorem evolves_markEnded : w.Evolves (w.markEnded s) where
  kind _ _ := kind?_markEnded
  started _ h := by rw [isStarted_markEnded]; exact h
  ended _ _ h := isEnded_markEnded.mpr (.inl h)

/-- A scheduler evolves when a scope is created. -/
theorem evolves_create {kind : ScopeKind} {interval : Nat} :
    w.Evolves (w.create kind interval).1 where
  kind r hr := by
    have hne : r ≠ w.nextId := by rintro rfl; exact not_known_nextId hr
    rw [kind?_create, if_neg hne]
  started _ h := by rw [isStarted_create]; exact h
  ended r hr h := isEnded_create.mpr ⟨h, by rintro rfl; exact not_known_nextId hr⟩

end Scheduler

end ScopedSql
