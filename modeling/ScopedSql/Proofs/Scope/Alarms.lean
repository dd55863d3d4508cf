import ScopedSql.Proofs.Scope.Calls

/-!
# What calls do to alarms

The alarm of a scope is a function of the time at which the scope was opened: after `n` rings it
stands at `Alarm.after n`, and time moves it on by as many rings as there are intervals in it
(`ringUntil_after`). In two parts or in one, time brings the same rings (`advance_advance`).

Without time a call does one of three things to a scope (`Scope.Alters`): it leaves the alarm and
the signals alone, or it opens the scope and sets the alarm, or it ends the scope and stops the
alarm (`alters_serve`).
-/

namespace ScopedSql

/-! ### Rings -/

namespace Alarm

/-- The alarm of a scope that was opened at a time, after so many rings. -/
def after (opened interval n : Nat) : Alarm := ⟨opened + (n + 1) * interval, (n + 1) * interval⟩

/-- The next ring of that alarm: when it is and how long the scope will have been open then. -/
def ring (opened interval n : Nat) : Nat × Nat := (opened + (n + 1) * interval, (n + 1) * interval)

/-- **The rings up to a time**: one for each interval since the scope was opened. -/
def ringsUpTo (opened interval time : Nat) : List (Nat × Nat) :=
  (List.range ((time - opened) / interval)).map (ring opened interval)

variable {opened interval time later n d : Nat}

/-- An alarm that is not due does not ring. -/
theorem ringUntil_of_lt {a : Alarm} (h : time < a.due) : a.ringUntil interval time = (a, []) := by
  rw [ringUntil, dif_neg fun hr => Nat.not_lt.mpr hr.2 h]

/-- An alarm without an interval does not ring. -/
theorem ringUntil_zero {a : Alarm} : a.ringUntil 0 time = (a, []) := by
  rw [ringUntil, dif_neg fun hr => Nat.lt_irrefl 0 hr.1]

/-- An alarm that is due rings and is set to the end of the next interval. -/
theorem ringUntil_of_le {a : Alarm} (hi : 0 < interval) (h : a.due ≤ time) :
    a.ringUntil interval time =
      ((ringUntil interval time ⟨a.due + interval, a.openFor + interval⟩).1,
        (a.due, a.openFor) ::
          (ringUntil interval time ⟨a.due + interval, a.openFor + interval⟩).2) := by
  rw [ringUntil, dif_pos ⟨hi, h⟩]

/-- **An alarm rings once in each interval** that goes by. -/
theorem ringUntil_after_add (hlo : opened + (n + d) * interval ≤ time)
    (hhi : time < opened + (n + d + 1) * interval) :
    (after opened interval n).ringUntil interval time =
      (after opened interval (n + d), (List.range' n d).map (ring opened interval)) := by
  induction d generalizing n with
  | zero => exact ringUntil_of_lt hhi
  | succ d ih =>
      have hi : 0 < interval := by
        rcases Nat.eq_zero_or_pos interval with rfl | hi
        · simp only [Nat.mul_zero] at hlo hhi
          omega
        · exact hi
      have hnext : (⟨(after opened interval n).due + interval,
          (after opened interval n).openFor + interval⟩ : Alarm) = after opened interval (n + 1) := by
        simp [after, Nat.succ_mul, Nat.add_assoc]
      have hdue : (after opened interval n).due ≤ time := by
        refine Nat.le_trans (Nat.add_le_add_left (Nat.mul_le_mul_right interval ?_) opened) hlo
        omega
      have hd : n + (d + 1) = n + 1 + d := by omega
      rw [hd] at hlo hhi ⊢
      rw [ringUntil_of_le hi hdue, hnext, ih hlo hhi, List.range'_succ, List.map_cons]
      rfl

/-- **The alarm of a scope that was opened at a time** has rung once for each interval since then. -/
theorem ringUntil_after (interval : Nat) (ho : opened ≤ time) (ht : time ≤ later) :
    ∃ rings, (after opened interval ((time - opened) / interval)).ringUntil interval later =
        (after opened interval ((later - opened) / interval), rings) ∧
      ringsUpTo opened interval time ++ rings = ringsUpTo opened interval later := by
  rcases Nat.eq_zero_or_pos interval with rfl | hi
  · exact ⟨[], by rw [ringUntil_zero, Nat.div_zero, Nat.div_zero], by simp [ringsUpTo]⟩
  · have hle : (time - opened) / interval ≤ (later - opened) / interval :=
      Nat.div_le_div_right (Nat.sub_le_sub_right ht opened)
    have hlo := Nat.div_mul_le_self (later - opened) interval
    have hhi := Nat.lt_div_mul_add (a := later - opened) hi
    rw [← Nat.add_one_mul] at hhi
    obtain ⟨d, hd⟩ := Nat.exists_eq_add_of_le hle
    rw [hd] at hlo hhi
    refine ⟨(List.range' ((time - opened) / interval) d).map (ring opened interval), ?_, ?_⟩
    · rw [hd]
      exact ringUntil_after_add (by omega) (by omega)
    · rw [ringsUpTo, ringsUpTo, ← List.map_append, hd, List.range_add, List.range'_eq_map_range]

/-- **Time goes by in parts as in one.** -/
theorem ringUntil_ringUntil {limit : Nat} (a : Alarm) (h : limit ≤ later) :
    a.ringUntil interval later =
      (((a.ringUntil interval limit).1.ringUntil interval later).1,
        (a.ringUntil interval limit).2 ++
          ((a.ringUntil interval limit).1.ringUntil interval later).2) := by
  fun_induction ringUntil interval limit a with
  | case1 a hr rest ih =>
      rw [ringUntil_of_le hr.1 (Nat.le_trans hr.2 h), ih]
      rfl
  | case2 a hr => rfl

end Alarm

/-- Time goes by for a scope in parts as in one. -/
theorem Scope.ringUntil_ringUntil {limit later : Nat} (x : Scope) (h : limit ≤ later) :
    x.ringUntil later =
      (((x.ringUntil limit).1.ringUntil later).1,
        (x.ringUntil limit).2 ++ ((x.ringUntil limit).1.ringUntil later).2) := by
  obtain ⟨kind, interval, started, ended, hooks, alarm⟩ := x
  cases alarm with
  | none => rfl
  | some a =>
      simp only [Scope.ringUntil]
      rw [a.ringUntil_ringUntil h]

/-- A ring of a scope: its time and the seconds. -/
def ScopeEvent.ring? (s : ScopeId) : ScopeEvent → Option (Nat × Nat)
  | .rang r time seconds => if r = s then some (time, seconds) else none
  | _ => none

/-- The rings of a scope among some events. -/
def ringsOf (s : ScopeId) (events : List ScopeEvent) : List (Nat × Nat) :=
  events.filterMap (ScopeEvent.ring? s)

/-- The rings of a scope in two lots of events, one after the other. -/
theorem ringsOf_append (s : ScopeId) (before later : List ScopeEvent) :
    ringsOf s (before ++ later) = ringsOf s before ++ ringsOf s later :=
  List.filterMap_append

namespace Scheduler

variable {w v u : Scheduler} {s r : ScopeId} {x y z : Scope} {a b ms : Nat}

/-! ### Time -/

/-- When time passes, each scope is what its alarm leaves of it. -/
theorem scope?_advance : (w.advance ms).1.scope? s =
    (w.scope? s).map fun x => (x.ringUntil (w.clock + ms)).1 :=
  List.getElem?_map

/-- Rings with their seconds, as events tell of them. -/
def inSeconds (rings : List (Nat × Nat)) : List (Nat × Nat) :=
  rings.map fun (time, openFor) => (time, openFor / 1000)

/-- The events of the rings of one scope are rings of that scope. -/
theorem ringsOf_rang (rings : List (Nat × Nat)) :
    ringsOf s (rings.map fun (time, openFor) => .rang r time (openFor / 1000)) =
      if r = s then inSeconds rings else [] := by
  rw [ringsOf, List.filterMap_map]
  split
  · rename_i h
    subst h
    rw [inSeconds, ← List.filterMap_eq_map]
    refine List.filterMap_congr fun p _ => ?_
    simp [ScopeEvent.ring?]
  · rename_i h
    refine List.filterMap_eq_nil_iff.mpr fun p _ => ?_
    simp [ScopeEvent.ring?, h]

/-- **The rings of a scope while time passes** are those of its alarm. -/
theorem ringsOf_advance : ringsOf s (w.advance ms).2 =
    ((w.scope? s).map fun x => inSeconds (x.ringUntil (w.clock + ms)).2).getD [] := by
  have key : ∀ (xs : List Scope) (k : Nat), ringsOf s
      ((xs.zipIdx k).flatMap fun p =>
        (p.1.ringUntil (w.clock + ms)).2.map fun (time, openFor) =>
          ScopeEvent.rang ⟨p.2⟩ time (openFor / 1000)) =
        if k ≤ s.index then (xs[s.index - k]?.map fun x =>
          inSeconds (x.ringUntil (w.clock + ms)).2).getD []
        else [] := by
    intro xs
    induction xs with
    | nil => intro k; simp [ringsOf]
    | cons x xs ih =>
        intro k
        rw [List.zipIdx_cons, List.flatMap_cons, ringsOf_append, ih, ringsOf_rang]
        obtain ⟨i⟩ := s
        rcases Nat.lt_trichotomy k i with h | rfl | h
        · have hi : i - k = i - (k + 1) + 1 := by omega
          have hk : (⟨k⟩ : ScopeId) ≠ ⟨i⟩ := fun e => Nat.ne_of_lt h (ScopeId.mk.inj e)
          rw [if_neg hk, if_pos (Nat.succ_le_of_lt h), if_pos (Nat.le_of_lt h), hi,
            List.getElem?_cons_succ, List.nil_append]
        · simp
        · have hk : (⟨k⟩ : ScopeId) ≠ ⟨i⟩ := fun e => Nat.ne_of_gt h (ScopeId.mk.inj e)
          rw [if_neg hk, if_neg (Nat.not_le.mpr h), if_neg (Nat.not_le.mpr (Nat.lt_succ_of_lt h)),
            List.nil_append]
  exact (key w.scopes 0).trans (if_pos (Nat.zero_le _))

/-- **To let time pass twice is to let it pass once.** -/
theorem advance_advance : ((w.advance a).1.advance b).1 = (w.advance (a + b)).1 := by
  have hle : w.clock + a ≤ w.clock + a + b := Nat.le_add_right _ _
  simp only [advance, List.map_map, ← Nat.add_assoc]
  refine congrArg (fun scopes => { w with clock := w.clock + a + b, scopes }) ?_
  refine List.map_congr_left fun x _ => ?_
  rw [x.ringUntil_ringUntil hle]
  rfl

/-- **Its rings are the same** then. -/
theorem ringsOf_advance_advance : ringsOf s (w.advance a).2 ++
    ringsOf s ((w.advance a).1.advance b).2 = ringsOf s (w.advance (a + b)).2 := by
  rw [ringsOf_advance, ringsOf_advance, ringsOf_advance, scope?_advance]
  cases w.scope? s with
  | none => rfl
  | some x =>
      have hle : w.clock + a ≤ w.clock + (a + b) := by omega
      have hclock : (w.advance a).1.clock + b = w.clock + (a + b) := Nat.add_assoc _ _ _
      simp only [Option.map_some, Option.getD_some, hclock]
      rw [x.ringUntil_ringUntil hle]
      exact List.map_append.symm

end Scheduler

/-! ### Calls without time -/

/-- **What a call without time can do to a scope.** -/
inductive Scope.Alters (w : Scheduler) (x y : Scope) : Prop
  /-- The alarm and the signals stay, except that a scope that was ended may be started now. -/
  | keeps : y.alarm = x.alarm → y.ended = x.ended → (x.ended = false → y.started = x.started) →
      (x.started → y.started) → x.Alters w y
  /-- The scope opens, and its alarm is set. -/
  | opens : x.started = false → x.ended = false → y.started → y.ended = false →
      y.alarm = w.alarmFor x → x.Alters w y
  /-- The scope is ended, and its alarm stops. -/
  | closes : x.ended = false → y.ended → y.alarm = none → (x.started → y.started) → x.Alters w y

/-- A scope keeps its kind and its interval. -/
structure Scope.Same (x y : Scope) : Prop where
  /-- The kind is the same. -/
  kind : y.kind = x.kind
  /-- The interval is the same. -/
  interval : y.interval = x.interval

namespace Scope

variable {w v : Scheduler} {x y z : Scope}

/-- Every scope is the same as itself. -/
theorem Same.refl (x : Scope) : x.Same x := ⟨rfl, rfl⟩

/-- What is the same as the same scope is the same. -/
theorem Same.trans (h₁ : x.Same y) (h₂ : y.Same z) : x.Same z :=
  ⟨h₂.kind.trans h₁.kind, h₂.interval.trans h₁.interval⟩

/-- A scope may stay as it is. -/
theorem Alters.refl (w : Scheduler) (x : Scope) : x.Alters w x :=
  .keeps rfl rfl (fun _ => rfl) id

/-- **A scope opens and is ended at most once**, so two alterations come to one. -/
theorem Alters.trans (h₁ : x.Alters w y) (h₂ : y.Alters w z)
    (hy : w.alarmFor y = w.alarmFor x) : x.Alters w z := by
  cases h₁ with
  | keeps ha he hs hm =>
      cases h₂ with
      | keeps ha' he' hs' hm' =>
          exact .keeps (ha'.trans ha) (he'.trans he)
            (fun hx => (hs' (he.trans hx)).trans (hs hx)) (fun hx => hm' (hm hx))
      | opens hns hne hs' he' ha' =>
          have hx : x.ended = false := he.symm.trans hne
          exact .opens ((hs hx).symm.trans hns) hx hs' he' (ha'.trans hy)
      | closes hne he' ha' hm' =>
          exact .closes (he.symm.trans hne) he' ha' fun hx => hm' (hm hx)
  | opens hns hne hs he ha =>
      cases h₂ with
      | keeps ha' he' _ hm' => exact .opens hns hne (hm' hs) (he'.trans he) (ha'.trans ha)
      | opens hns' => simp [hs] at hns'
      | closes _ he' ha' _ => exact .closes hne he' ha' fun hx => by simp [hns] at hx
  | closes hne he ha hm =>
      cases h₂ with
      | keeps ha' he' _ hm' =>
          exact .closes hne (he'.trans he) (ha'.trans ha) fun hx => hm' (hm hx)
      | opens _ hne' => simp [he] at hne'
      | closes hne' => simp [he] at hne'

end Scope

namespace Scheduler

variable {w v u : Scheduler} {s r : ScopeId} {x y z : Scope} {a b ms : Nat}

/-- The alarm of a scope depends on the time and on its interval, and on whether scopes are watched.
-/
theorem alarmFor_congr (hc : v.clock = w.clock) (ht : v.timed = w.timed)
    (hi : y.interval = x.interval) : v.alarmFor y = w.alarmFor x := by
  rw [alarmFor, alarmFor, hc, ht, hi]

/-- A scope that a call finds: it is there, or it is created by the call. -/
def Finds (w : Scheduler) (s : ScopeId) (x : Scope) : Prop :=
  w.scope? s = some x ∨ ¬ w.Known s ∧ ∃ kind interval, x = Scope.fresh kind interval

/-- A scope that is new was not started. -/
theorem Finds.isStarted (h : w.Finds s x) : w.isStarted s = x.started := by
  rcases h with hx | ⟨hk, kind, interval, rfl⟩
  · simp [Scheduler.isStarted, hx]
  · have hns := mt known_of_isStarted hk
    rw [Bool.not_eq_true] at hns
    exact hns

/-- **What a call without time can do to the scopes of a scheduler.** -/
structure Alters (w v : Scheduler) : Prop where
  /-- The time stays. -/
  clock : v.clock = w.clock
  /-- Alarms go on or not, as before. -/
  timed : v.timed = w.timed
  /-- Scopes stay. -/
  known : ∀ s, w.Known s → v.Known s
  /-- Each scope comes from one that was there before or is new. -/
  scope : ∀ s y, v.scope? s = some y → ∃ x, w.Finds s x ∧ x.Same y ∧ x.Alters w y

namespace Alters

/-- Where time and scopes stay, nothing alters. -/
theorem of_scopes (hc : v.clock = w.clock) (ht : v.timed = w.timed) (hs : v.scopes = w.scopes) :
    w.Alters v where
  clock := hc
  timed := ht
  known s hk := by rw [Known, hs]; exact hk
  scope s y hy := by
    rw [scope?, hs] at hy
    exact ⟨y, .inl hy, .refl y, .refl w y⟩

/-- Nothing has to alter. -/
theorem refl (w : Scheduler) : w.Alters w := of_scopes rfl rfl rfl

/-- What alters and alters again alters. -/
theorem trans (h₁ : w.Alters v) (h₂ : v.Alters u) : w.Alters u where
  clock := h₂.clock.trans h₁.clock
  timed := h₂.timed.trans h₁.timed
  known s hk := h₂.known s (h₁.known s hk)
  scope s z hz := by
    have hcongr : ∀ {y z : Scope}, y.Alters v z → y.Alters w z := by
      intro y z h
      cases h with
      | keeps ha he hs hm => exact .keeps ha he hs hm
      | opens hns hne hs he ha =>
          exact .opens hns hne hs he (ha.trans (alarmFor_congr h₁.clock h₁.timed rfl))
      | closes hne he ha hm => exact .closes hne he ha hm
    obtain ⟨y, hy, hsame, hz⟩ := h₂.scope s z hz
    rcases hy with hy | ⟨hk, hnew⟩
    · obtain ⟨x, hx, hsame', hy⟩ := h₁.scope s y hy
      exact ⟨x, hx, hsame'.trans hsame, hy.trans (hcongr hz)
        (alarmFor_congr rfl rfl hsame'.interval)⟩
    · exact ⟨y, .inr ⟨mt (h₁.known s) hk, hnew⟩, hsame, hcongr hz⟩

/-- A change of one scope. -/
theorem modify (hx : w.scope? s = some x) {f : Scope → Scope} (hs : x.Same (f x))
    (ha : x.Alters w (f x)) : w.Alters (w.modify s f) where
  clock := rfl
  timed := rfl
  known r hr := by rw [Known, Scheduler.modify, List.length_modify]; exact hr
  scope r y hy := by
    rw [scope?_modify] at hy
    split at hy
    · rename_i hr
      subst hr
      rw [hx, Option.map_some, Option.some_inj] at hy
      subst hy
      exact ⟨x, .inl hx, hs, ha⟩
    · exact ⟨y, .inl hy, .refl y, .refl w y⟩

end Alters

/-- A scope that is created is new. -/
theorem alters_create (kind : ScopeKind) (interval : Nat) : w.Alters (w.create kind interval).1 where
  clock := rfl
  timed := rfl
  known s hk := known_create.mpr (.inl hk)
  scope s y hy := by
    rw [scope?_create] at hy
    split at hy
    · rename_i hs
      obtain rfl := Option.some.inj hy
      exact ⟨_, .inr ⟨hs ▸ not_known_nextId, kind, interval, rfl⟩, .refl _, .refl w _⟩
    · exact ⟨y, .inl hy, .refl y, .refl w y⟩

/-- **A start alters the scopes as a call may.** -/
theorem alters_startStep (hx : w.scope? s = some x) : w.Alters (w.startStep s x).scheduler := by
  unfold startStep
  split
  · exact .refl w
  · rename_i hs
    split
    · rename_i he
      exact .modify hx ⟨rfl, rfl⟩ (.keeps rfl rfl (fun h => by simp [he] at h) fun _ => rfl)
    · rename_i he
      rw [Bool.not_eq_true] at hs he
      exact .modify hx ⟨rfl, rfl⟩ (.opens hs he rfl he rfl)

/-- **An end alters the scopes as a call may.** -/
theorem alters_finishStep (hx : w.scope? s = some x) : w.Alters (w.finishStep s x).scheduler := by
  unfold finishStep
  split
  · exact .refl w
  · rename_i he
    rw [Bool.not_eq_true] at he
    split
    · exact .modify hx ⟨rfl, rfl⟩ (.closes he rfl rfl id)
    · exact .modify hx ⟨rfl, rfl⟩ (.closes he rfl rfl id)

/-- Registering a hook alters the scopes as a call may. -/
theorem alters_onEndStep {h : Hook} (hx : w.scope? s = some x) :
    w.Alters (w.onEndStep s h x).scheduler := by
  unfold onEndStep
  split
  · exact .refl w
  · exact .modify hx ⟨rfl, rfl⟩ (.keeps rfl rfl (fun _ => rfl) id)

/-- **No job takes time**, and none lets an alarm ring. -/
theorem alters_step (w : Scheduler) (j : Job) :
    w.Alters (w.step j).scheduler ∧ ∀ s, ringsOf s (w.step j).events = [] := by
  cases j with
  | hook => exact ⟨.refl w, fun _ => rfl⟩
  | command c =>
      cases c with
      | start s =>
          rw [step]
          split
          · exact ⟨.refl w, fun _ => rfl⟩
          · rename_i x hx
            refine ⟨alters_startStep hx, fun r => ?_⟩
            unfold startStep
            split
            · rfl
            · split <;> rfl
      | finish s =>
          rw [step]
          split
          · exact ⟨.refl w, fun _ => rfl⟩
          · rename_i x hx
            refine ⟨alters_finishStep hx, fun r => ?_⟩
            unfold finishStep
            split
            · rfl
            · split <;> rfl
      | onEnd s h =>
          rw [step]
          split
          · exact ⟨.refl w, fun _ => rfl⟩
          · rename_i x hx
            refine ⟨alters_onEndStep hx, fun r => ?_⟩
            unfold onEndStep
            split <;> rfl
      | retire s =>
          refine ⟨?_, fun _ => rfl⟩
          simp only [step]
          split
          · exact .of_scopes rfl rfl rfl
          · exact .refl w

/-- **No agenda takes time**, and none lets an alarm ring. -/
theorem alters_run (w : Scheduler) (jobs : List Job) :
    w.Alters (w.run jobs).1 ∧ ∀ s, ringsOf s (w.run jobs).2 = [] := by
  fun_induction run w jobs with
  | case1 w => exact ⟨.refl w, fun _ => rfl⟩
  | case2 w j rest e after ih =>
      obtain ⟨hstep, hquiet⟩ := alters_step w j
      refine ⟨hstep.trans ih.1, fun s => ?_⟩
      rw [ringsOf_append, hquiet, ih.2]
      rfl

/-- A request alters the scopes as a call may, and no scope rings in it. -/
theorem alters_newScope (w : Scheduler) :
    w.Alters w.newScope.1 ∧ ∀ s, ringsOf s w.newScope.2.2 = [] := by
  have hgrow : w.Alters w.grow := (alters_create _ _).trans (alters_create _ _)
  cases hc : w.closed with
  | true =>
      rw [newScope_closed hc]
      exact ⟨hgrow, fun _ => rfl⟩
  | false =>
      have henlist : w.Alters w.enlist := hgrow.trans (.of_scopes rfl rfl rfl)
      obtain ⟨hrun, hquiet⟩ := alters_run w.enlist
        [.command (.onEnd w.nextId (userHook w.nextId w.afterNextId)),
          .command (.onEnd w.community (communityHook w.nextId)), .command (.finish w.community)]
      rw [newScope_open hc]
      exact ⟨henlist.trans hrun, hquiet⟩

/-- The beginning of a close alters the scopes as a call may, and no scope rings in it. -/
theorem alters_beginClose (w : Scheduler) :
    w.Alters w.beginClose.1 ∧ ∀ s, ringsOf s w.beginClose.2.2 = [] := by
  have hclosing : w.Alters { w with closed := true } := .of_scopes rfl rfl rfl
  obtain ⟨hrun, hquiet⟩ := alters_run { w with closed := true } [.command (.finish w.community)]
  exact ⟨hclosing.trans hrun, hquiet⟩

/-- **A call that neither takes time nor lets go of a scope** alters scopes and brings no ring. -/
theorem alters_serve {c : Call} (ht : ∀ ms, c ≠ .advance ms) (hd : ∀ s, c ≠ .abandon s) :
    w.Alters (w.serve c).1 ∧ ∀ s, ringsOf s (w.serve c).2 = [] := by
  cases c with
  | advance ms => exact absurd rfl (ht ms)
  | abandon s => exact absurd rfl (hd s)
  | newScope => exact alters_newScope w
  | create kind interval => exact ⟨alters_create kind interval, fun _ => rfl⟩
  | finish s => exact alters_run w _
  | beginClose => exact alters_beginClose w
  | disown => exact ⟨.of_scopes rfl rfl rfl, fun _ => rfl⟩
  | endClose => exact ⟨.of_scopes rfl rfl rfl, fun _ => rfl⟩
  | nothing => exact ⟨.refl w, fun _ => rfl⟩
  | start s =>
      rw [serve, start]
      split
      · rename_i r hr
        split at hr
        · obtain rfl := Except.ok.inj hr
          exact ⟨.refl w, fun _ => rfl⟩
        · split at hr
          · cases hr
          · obtain rfl := Except.ok.inj hr
            exact alters_run w _
      · exact ⟨.refl w, fun _ => rfl⟩

end Scheduler

end ScopedSql
