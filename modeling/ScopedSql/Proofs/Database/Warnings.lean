import ScopedSql.Proofs.Database.ChainOrder
import ScopedSql.Proofs.Scope.Alarms

/-!
# Warnings of open scopes

A scope that stays open is reported again and again. `OpenSince` says that a scope was opened at a
time and that since then it was neither ended nor let go of. Exactly while it is open it is reported,
one interval after the start and then at every further interval (`Warns`), however many scopes there
are and whatever else happens meanwhile.
-/

namespace ScopedSql

/-- The notice of a scope that is still open comes from a ring. -/
theorem Session.noticeOf?_stillOpen {db : Database} {e : Event} {s : ScopeId} {kind : ScopeKind}
    {seconds : Nat} (h : Session.noticeOf? db e = some (.stillOpen s kind seconds)) :
    (∃ time, e = .scope (.rang s time seconds)) ∨ e = .noticed (.stillOpen s kind seconds) := by
  unfold noticeOf? at h
  split at h
  · exact .inr (by rw [Option.some.inj h])
  · cases h
  · obtain ⟨x, -, hx⟩ := Option.map_eq_some_iff.mp h
    cases hx
    exact .inl ⟨_, rfl⟩
  · cases h

/-- The warning of a scope in an event: its time and the notice. -/
def Event.warning? (db : Database) (s : ScopeId) : Event → Option (Nat × Notice)
  | .scope (.rang r time seconds) =>
      if r = s then (Session.noticeOf? db (.scope (.rang r time seconds))).map fun n => (time, n)
      else none
  | _ => none

namespace History

variable {h : History} {m : Move} {moves later : List Move} {interval : Nat} {timed : Bool}
  {s : ScopeId} {x y : Scope} {time : Nat}

/-- The time. -/
def clock (h : History) : Nat := h.db.scheduler.clock

/-- **The warnings of a scope** so far: when each of them was given and what it says. -/
def warnings (h : History) (s : ScopeId) : List (Nat × Notice) :=
  h.events.filterMap (Event.warning? h.db s)

/-- **The warnings that are due** up to a time for a scope that was opened at a time: one for each
interval. -/
def dueWarnings (s : ScopeId) (x : Scope) (opened time : Nat) : List (Nat × Notice) :=
  (List.range ((time - opened) / x.interval)).map fun n =>
    (opened + (n + 1) * x.interval, .stillOpen s x.kind ((n + 1) * x.interval / 1000))

/-- **A run opens a scope** with its last move, or before the first one. -/
structure Opens (interval : Nat) (timed : Bool) (moves : List Move) (s : ScopeId) : Prop where
  /-- The scope was started. -/
  started : (history interval timed moves).db.scheduler.isStarted s
  /-- It was not before. -/
  first : ∀ before m, moves = before ++ [m] →
    ¬ (history interval timed before).db.scheduler.isStarted s

/-- **A scope is open and held since a time**: it was started then, and since then it was neither ended
nor let go of. -/
def OpenSince (interval : Nat) (timed : Bool) (moves : List Move) (s : ScopeId) (time : Nat) : Prop :=
  ¬ (history interval timed moves).db.scheduler.isEnded s ∧
    ∃ opened later, moves = opened ++ later ∧ Opens interval timed opened s ∧
      (history interval timed opened).clock = time ∧ .act (.abandon s) ∉ later

/-! ### Open scopes -/

/-- A longer run takes the scheduler on from where it was. -/
theorem evolves_append (interval : Nat) (timed : Bool) (before later : List Move) :
    (history interval timed before).db.scheduler.Evolves
      (history interval timed (before ++ later)).db.scheduler := by
  rw [← history_play]
  exact (sound_history interval timed before).evolves_play later

/-- A scope that is open was started. -/
theorem OpenSince.started (ho : OpenSince interval timed moves s time) :
    (history interval timed moves).db.scheduler.isStarted s := by
  obtain ⟨-, opened, later, rfl, hop, -⟩ := ho
  exact (evolves_append interval timed opened later).started s hop.started

/-- **A scope is open after a move** if it was open before and the move neither ends it nor lets go of it,
or if the move opens it. -/
theorem openSince_concat :
    OpenSince interval timed (moves ++ [m]) s time ↔
      ¬ (history interval timed (moves ++ [m])).db.scheduler.isEnded s ∧
        (OpenSince interval timed moves s time ∧ m ≠ .act (.abandon s) ∨
          ¬ (history interval timed moves).db.scheduler.isStarted s ∧
            (history interval timed (moves ++ [m])).db.scheduler.isStarted s ∧
              (history interval timed (moves ++ [m])).clock = time) := by
  refine and_congr_right fun he => ⟨?_, ?_⟩
  · rintro ⟨opened, later, heq, hop, ht, hl⟩
    rcases List.eq_nil_or_concat later with rfl | ⟨later, m', rfl⟩
    · rw [List.append_nil] at heq
      subst heq
      exact .inr ⟨hop.first moves m rfl, hop.started, ht⟩
    · rw [List.concat_eq_append, ← List.append_assoc] at heq
      obtain ⟨rfl, hm⟩ := List.append_inj' heq rfl
      obtain rfl := List.singleton_inj.mp hm
      rw [List.concat_eq_append] at hl
      refine .inl ⟨⟨fun hended => he ?_, opened, later, rfl, hop, ht, ?_⟩, ?_⟩
      · have hstarted := (evolves_append interval timed opened later).started s hop.started
        exact (evolves_append interval timed (opened ++ later) [m]).ended s
          (Scheduler.known_of_isStarted hstarted) hended
      · exact fun h => hl (List.mem_append_left _ h)
      · rintro rfl
        exact hl (List.mem_append_right _ (List.mem_singleton_self _))
  · rintro (⟨⟨-, opened, later, rfl, hop, ht, hl⟩, hm⟩ | ⟨hns, hs, ht⟩)
    · refine ⟨opened, later ++ [m], List.append_assoc _ _ _, hop, ht, fun h => ?_⟩
      rcases List.mem_append.mp h with h | h
      · exact hl h
      · exact hm (List.mem_singleton.mp h).symm
    · refine ⟨moves ++ [m], [], (List.append_nil _).symm, ⟨hs, fun before m' heq => ?_⟩, ht,
        List.not_mem_nil⟩
      obtain ⟨rfl, -⟩ := List.append_inj' heq rfl
      exact hns

/-- A scope that was not started is not open. -/
theorem not_openSince (h : ¬ (history interval timed moves).db.scheduler.isStarted s) (time : Nat) :
    ¬ OpenSince interval timed moves s time :=
  fun ho => h ho.started

/-! ### Rings -/

/-- The rings of a scope so far, with their seconds. -/
def rings (h : History) (s : ScopeId) : List (Nat × Nat) :=
  ringsOf s (h.events.filterMap Event.scope?)

/-- **A move** lets time pass, or lets go of a scope, or alters scopes without a ring. -/
theorem move_cases (h : History) (m : Move) :
    (∃ ms, m = .act (.advance ms)) ∨ (∃ r, m = .act (.abandon r)) ∨
      (∀ r, m ≠ .act (.abandon r)) ∧ h.db.scheduler.Alters (h.move m).db.scheduler ∧
        ∀ s, (h.move m).rings s = h.rings s := by
  obtain ⟨c, hh⟩ := h.db.exists_happens m
  by_cases hcalls : (∃ ms, c = .advance ms) ∨ ∃ r, c = .abandon r
  · obtain ⟨action, rfl, hcall⟩ : ∃ action : Action, m = .act action ∧ action.call = c :=
      hh.exists_action (by rcases hcalls with ⟨ms, rfl⟩ | ⟨r, rfl⟩ <;> simp)
    rcases hcalls with ⟨ms, rfl⟩ | ⟨r, rfl⟩
    · cases action <;> simp [Action.call] at hcall ⊢
    · cases action <;> simp [Action.call] at hcall ⊢
  · rw [not_or, not_exists, not_exists] at hcalls
    obtain ⟨halters, hquiet⟩ := Scheduler.alters_serve (w := h.db.scheduler) hcalls.1 hcalls.2
    refine .inr (.inr ⟨?_, ?_, fun s => ?_⟩)
    · rintro r rfl
      exact hcalls.2 r hh.call_eq
    · rw [show (h.move m).db.scheduler = _ from hh.scheduler]
      exact halters
    · rw [rings, move, List.filterMap_append, hh.scope_events, ringsOf_append, hquiet,
        List.append_nil, ← rings]

/-- While time passes, a scope rings as its alarm does. -/
theorem rings_advance (h : History) (s : ScopeId) (ms : Nat) :
    (h.move (.act (.advance ms))).rings s =
      h.rings s ++ ringsOf s (h.db.scheduler.advance ms).2 := by
  obtain ⟨c, hh⟩ := h.db.exists_happens (.act (.advance ms))
  obtain rfl : c = .advance ms := hh.call_eq
  rw [rings, move, List.filterMap_append, hh.scope_events, ringsOf_append, ← rings]
  rfl

/-- To let go of a scope is silent. -/
theorem rings_abandon (h : History) (s r : ScopeId) :
    (h.move (.act (.abandon r))).rings s = h.rings s := by
  rw [rings, move, List.filterMap_append, ringsOf_append, ← rings]
  exact List.append_nil _

/-- A warning is a ring, told of with the kind of the scope. -/
theorem warning?_eq (db : Database) (s : ScopeId) (e : Event) :
    e.warning? db s = (e.scope?.bind (ScopeEvent.ring? s)).bind fun p =>
      (db.scheduler.kind? s).map fun kind => (p.1, Notice.stillOpen s kind p.2) := by
  cases e with
  | scope e =>
      cases e with
      | rang r time seconds =>
          by_cases hr : r = s
          · subst hr
            simp [Event.warning?, Event.scope?, ScopeEvent.ring?, Session.noticeOf?,
              Scheduler.kind?, Function.comp_def]
          · simp [Event.warning?, Event.scope?, ScopeEvent.ring?, hr]
      | _ => rfl
  | _ => rfl

/-- The warnings of a scope are its rings. -/
theorem warnings_eq {kind : ScopeKind} (hk : h.db.scheduler.kind? s = some kind) :
    h.warnings s =
      (h.rings s).map fun (time, seconds) => (time, .stillOpen s kind seconds) := by
  rw [warnings, rings, ringsOf, List.filterMap_filterMap, List.map_filterMap]
  refine List.filterMap_congr fun e _ => ?_
  rw [warning?_eq, hk]
  exact Option.map_eq_bind.symm

/-! ### What every run preserves -/

/-- **Where the alarm of a scope stands**: while the scope is open it has rung once for each interval,
and otherwise it is silent. -/
structure Watched (interval : Nat) (timed : Bool) (moves : List Move) (s : ScopeId) : Prop where
  /-- A scope that was not started was never reported. -/
  unstarted : ¬ (history interval timed moves).db.scheduler.isStarted s →
    (history interval timed moves).rings s = []
  /-- An open scope is reported again at the next interval. -/
  opened : ∀ x time, (history interval timed moves).db.scheduler.scope? s = some x →
    OpenSince interval timed moves s time → time ≤ (history interval timed moves).clock ∧
      x.alarm = some (Alarm.after time x.interval
        (((history interval timed moves).clock - time) / x.interval)) ∧
      (history interval timed moves).rings s =
        Scheduler.inSeconds (Alarm.ringsUpTo time x.interval (history interval timed moves).clock)
  /-- Any other scope has no alarm. -/
  idle : ∀ x, (history interval timed moves).db.scheduler.scope? s = some x →
    (∀ time, ¬ OpenSince interval timed moves s time) → x.alarm = none

/-- What rings until a limit in a scope with an alarm is what its alarm rings. -/
theorem ringUntil_of_alarm {a : Alarm} (h : x.alarm = some a) (limit : Nat) :
    x.ringUntil limit = ({ x with alarm := some (a.ringUntil x.interval limit).1 },
      (a.ringUntil x.interval limit).2) := by
  rw [Scope.ringUntil, h]

/-- A scope without an alarm is silent. -/
theorem ringUntil_of_silent (h : x.alarm = none) (limit : Nat) : x.ringUntil limit = (x, []) := by
  rw [Scope.ringUntil, h]

/-- An open scope rings once in each interval, whatever happens. -/
theorem Watched.rings_of_open (hw : Watched interval timed moves s)
    (hx : (history interval timed moves).db.scheduler.scope? s = some x)
    (ho : OpenSince interval timed moves s time) (m : Move) :
    ((history interval timed moves).move m).rings s = Scheduler.inSeconds
      (Alarm.ringsUpTo time x.interval ((history interval timed moves).move m).clock) := by
  obtain ⟨hle, halarm, hrings⟩ := hw.opened x time hx ho
  rcases (history interval timed moves).move_cases m with ⟨ms, rfl⟩ | ⟨r, rfl⟩ | ⟨-, ha, hr⟩
  · have hlater := Nat.le_add_right (history interval timed moves).clock ms
    obtain ⟨rings, hring, happend⟩ := Alarm.ringUntil_after x.interval hle hlater
    have hlimit : (history interval timed moves).db.scheduler.clock + ms =
      (history interval timed moves).clock + ms := rfl
    rw [rings_advance, Scheduler.ringsOf_advance, hx, Option.map_some, Option.getD_some, hlimit,
      ringUntil_of_alarm halarm, hring, hrings]
    exact List.map_append.symm.trans (congrArg _ happend)
  · rw [rings_abandon, hrings]
    rfl
  · rw [hr, hrings, clock, clock, ha.clock]

/-- A scope that is not open is silent, whatever happens. -/
theorem Watched.rings_of_idle (hw : Watched interval timed moves s)
    (ho : ∀ time, ¬ OpenSince interval timed moves s time) (m : Move) :
    ((history interval timed moves).move m).rings s = (history interval timed moves).rings s := by
  rcases (history interval timed moves).move_cases m with ⟨ms, rfl⟩ | ⟨r, rfl⟩ | ⟨-, -, hr⟩
  · rw [rings_advance, Scheduler.ringsOf_advance]
    cases hx : (history interval timed moves).db.scheduler.scope? s with
    | none => exact List.append_nil _
    | some x =>
        rw [Option.map_some, Option.getD_some, ringUntil_of_silent (hw.idle x hx ho)]
        exact List.append_nil _
  · exact rings_abandon _ _ _
  · exact hr s

/-- A move that takes back no start and starts nothing opens nothing. -/
theorem openSince_concat_of_started
    (hs : (history interval timed (moves ++ [m])).db.scheduler.isStarted s =
      (history interval timed moves).db.scheduler.isStarted s)
    (he : (history interval timed (moves ++ [m])).db.scheduler.isEnded s =
      (history interval timed moves).db.scheduler.isEnded s) :
    OpenSince interval timed (moves ++ [m]) s time ↔
      OpenSince interval timed moves s time ∧ m ≠ .act (.abandon s) := by
  rw [openSince_concat, hs, he]
  constructor
  · rintro ⟨-, ho | ⟨hns, hst, -⟩⟩
    · exact ho
    · exact absurd hst hns
  · exact fun ho => ⟨ho.1.1, .inl ho⟩

/-- A scope is open after one was let go of if it was open before and is another one. -/
theorem openSince_abandon {r : ScopeId} :
    OpenSince interval timed (moves ++ [.act (.abandon r)]) s time ↔
      OpenSince interval timed moves s time ∧ r ≠ s := by
  have ha := Scheduler.agree_abandon (w := (history interval timed moves).db.scheduler) (s := r)
  refine (openSince_concat_of_started ?_ ?_).trans (and_congr_right' (by simp))
  · rw [history_concat]
    exact ha.started s
  · rw [history_concat]
    exact ha.ended s

/-- Time moves the alarm of an open scope to its next ring. -/
theorem Watched.advance (hw : Watched interval timed moves s) (ms : Nat) :
    Watched interval timed (moves ++ [.act (.advance ms)]) s := by
  have ha := Scheduler.agree_advance (w := (history interval timed moves).db.scheduler) ms
  have hopen : ∀ time, OpenSince interval timed (moves ++ [.act (.advance ms)]) s time ↔
      OpenSince interval timed moves s time := fun time =>
    (openSince_concat_of_started (by rw [history_concat]; exact ha.started s)
      (by rw [history_concat]; exact ha.ended s)).trans (and_iff_left (by simp))
  have hscope : ∀ y, (history interval timed (moves ++ [.act (.advance ms)])).db.scheduler.scope? s =
      some y → ∃ x, (history interval timed moves).db.scheduler.scope? s = some x ∧
        (x.ringUntil ((history interval timed moves).clock + ms)).1 = y := by
    intro y hy
    rw [history_concat] at hy
    exact Option.map_eq_some_iff.mp (Scheduler.scope?_advance.symm.trans hy)
  refine ⟨fun hns => ?_, fun y time hy ho => ?_, fun y hy ho => ?_⟩
  · rw [history_concat] at hns ⊢
    replace hns : ¬ (history interval timed moves).db.scheduler.isStarted s := by
      rw [← ha.started]
      exact hns
    rw [hw.rings_of_idle (not_openSince hns), hw.unstarted hns]
  · obtain ⟨x, hx, rfl⟩ := hscope y hy
    have ho' := (hopen time).mp ho
    obtain ⟨hle, halarm, -⟩ := hw.opened x time hx ho'
    have hlater := Nat.le_add_right (history interval timed moves).clock ms
    obtain ⟨rings, hring, -⟩ := Alarm.ringUntil_after x.interval hle hlater
    rw [ringUntil_of_alarm halarm, hring, history_concat]
    exact ⟨Nat.le_add_right_of_le hle, rfl, hw.rings_of_open hx ho' _⟩
  · obtain ⟨x, hx, rfl⟩ := hscope y hy
    have hnone := hw.idle x hx fun time ho' => ho time ((hopen time).mpr ho')
    rw [ringUntil_of_silent hnone]
    exact hnone

/-- Letting go of a scope stops its alarm, and no other. -/
theorem Watched.abandon (hw : Watched interval timed moves s) (r : ScopeId) :
    Watched interval timed (moves ++ [.act (.abandon r)]) s := by
  have ha := Scheduler.agree_abandon (w := (history interval timed moves).db.scheduler) (s := r)
  have hscope : (history interval timed (moves ++ [.act (.abandon r)])).db.scheduler.scope? s =
      if s = r then ((history interval timed moves).db.scheduler.scope? s).map
        fun x => { x with alarm := none }
      else (history interval timed moves).db.scheduler.scope? s := by
    rw [history_concat]
    exact Scheduler.scope?_modify _
  refine ⟨fun hns => ?_, fun y time hy ho => ?_, fun y hy ho => ?_⟩
  · rw [history_concat] at hns ⊢
    rw [rings_abandon]
    refine hw.unstarted ?_
    rw [← ha.started]
    exact hns
  · obtain ⟨ho', hne⟩ := openSince_abandon.mp ho
    rw [hscope, if_neg hne.symm] at hy
    rw [history_concat, rings_abandon]
    exact hw.opened y time hy ho'
  · rw [hscope] at hy
    split at hy
    · obtain ⟨x, -, rfl⟩ := Option.map_eq_some_iff.mp hy
      rfl
    · rename_i hne
      exact hw.idle y hy fun time ho' => ho time (openSince_abandon.mpr ⟨ho', Ne.symm hne⟩)

/-- Whether a database watches its scopes is fixed from the beginning. -/
theorem timed_history (interval : Nat) (timed : Bool) (moves : List Move) :
    (history interval timed moves).db.scheduler.timed = timed := by
  refine play_induction (p := fun h => h.db.scheduler.timed = timed) ?_ (fun h m ih => ?_) moves
  · exact congrArg (fun r : Scheduler × List ScopeEvent => r.1.timed) (Scheduler.new_eq interval timed)
  · rcases h.move_cases m with ⟨ms, rfl⟩ | ⟨r, rfl⟩ | ⟨-, ha, -⟩
    · exact ih
    · exact ih
    · exact ha.timed.trans ih

/-- A start sets the alarm of a scope, and an end stops it. -/
theorem Watched.alters (hw : Watched interval true moves s) (hm : ∀ r, m ≠ .act (.abandon r))
    (ha : (history interval true moves).db.scheduler.Alters
      (history interval true (moves ++ [m])).db.scheduler)
    (hr : (history interval true (moves ++ [m])).rings s = (history interval true moves).rings s) :
    Watched interval true (moves ++ [m]) s := by
  have hclock : (history interval true (moves ++ [m])).clock = (history interval true moves).clock :=
    ha.clock
  refine ⟨fun hns => ?_, fun y time hy ho => ?_, fun y hy ho => ?_⟩
  · rw [hr]
    exact hw.unstarted (mt ((evolves_append interval true moves [m]).started s) hns)
  · obtain ⟨x, hx, hsame, halters⟩ := ha.scope s y hy
    rcases openSince_concat.mp ho with ⟨hne, ⟨ho', -⟩ | ⟨hns, hst, rfl⟩⟩
    · have hx' : (history interval true moves).db.scheduler.scope? s = some x :=
        hx.resolve_right fun hnew => hnew.1 (Scheduler.known_of_isStarted ho'.started)
      obtain ⟨hle, halarm, hrings⟩ := hw.opened x time hx' ho'
      cases halters with
      | keeps hkeep => rw [hclock, hr, hsame.interval, hkeep]; exact ⟨hle, halarm, hrings⟩
      | opens hxs => exact absurd (hx.isStarted.symm.trans ho'.started) (by simp [hxs])
      | closes _ hye => exact absurd hye (by simpa [Scheduler.isEnded, hy] using hne)
    · have hys : y.started := by simpa [Scheduler.isStarted, hy] using hst
      cases halters with
      | keeps _ hye hstart =>
          have hxe : x.ended = false := by
            rw [← hye]
            simpa [Scheduler.isEnded, hy] using hne
          rw [hx.isStarted, ← hstart hxe] at hns
          exact absurd hys hns
      | opens _ _ _ _ halarm =>
          refine ⟨Nat.le_refl _, ?_, ?_⟩
          · rw [halarm, hclock, Nat.sub_self, Nat.zero_div, hsame.interval, Scheduler.alarmFor,
              timed_history, if_pos rfl, Alarm.after, Nat.zero_add, Nat.one_mul]
            rfl
          · rw [hr, hw.unstarted hns, Alarm.ringsUpTo, Nat.sub_self, Nat.zero_div]
            rfl
      | closes _ hye => exact absurd hye (by simpa [Scheduler.isEnded, hy] using hne)
  · obtain ⟨x, hx, hsame, halters⟩ := ha.scope s y hy
    cases halters with
    | keeps hkeep hye =>
        rw [hkeep]
        rcases hx with hx | ⟨-, kind, interval', rfl⟩
        · refine hw.idle x hx fun time ho' => ho time (openSince_concat.mpr ⟨?_, .inl ⟨ho', hm s⟩⟩)
          have hne := ho'.1
          simpa [Scheduler.isEnded, hx, hy, hye] using hne
        · rfl
    | opens hxs _ hys hye =>
        refine absurd (openSince_concat.mpr ⟨?_, .inr ⟨?_, ?_, rfl⟩⟩) (ho _)
        · simpa [Scheduler.isEnded, hy] using hye
        · rw [hx.isStarted, hxs]
          simp
        · simpa [Scheduler.isStarted, hy] using hys
    | closes _ _ hnone => exact hnone

/-- Before the first move the first scope is open. -/
theorem scheduler_nil (interval : Nat) (timed : Bool) :
    (history interval timed []).db.scheduler =
      (Scheduler.unborn interval timed).markStarted ⟨0⟩ :=
  congrArg Prod.fst (Scheduler.new_eq interval timed)

/-- In a new database the first scope is watched from the start, and no scope has rung. -/
theorem watched_nil (interval : Nat) (s : ScopeId) : Watched interval true [] s := by
  have hrings : (history interval true []).rings s = [] := by
    rw [rings, show (history interval true []).events = _ from events_opening interval true]
    rfl
  have hscope : ∀ x, (history interval true []).db.scheduler.scope? s = some x →
      s = ⟨0⟩ ∧ x = ⟨.community, interval, true, false, [], some ⟨0 + interval, interval⟩⟩ := by
    intro x hx
    rw [scheduler_nil] at hx
    obtain ⟨_ | i⟩ := s
    · exact ⟨rfl, (Option.some.inj hx).symm⟩
    · cases hx
  have hclock : (history interval true []).clock = 0 := by
    rw [clock, scheduler_nil]
    rfl
  refine ⟨fun _ => hrings, fun x time hx ho => ?_, fun x hx ho => ?_⟩
  · obtain ⟨rfl, rfl⟩ := hscope x hx
    obtain ⟨-, opened, later, heq, -, htime, -⟩ := ho
    obtain ⟨rfl, rfl⟩ := List.append_eq_nil_iff.mp heq.symm
    rw [hclock] at htime ⊢
    subst htime
    exact ⟨Nat.le_refl _, by simp [Alarm.after], hrings.trans (by simp [Alarm.ringsUpTo, Scheduler.inSeconds])⟩
  · obtain ⟨rfl, -⟩ := hscope x hx
    refine absurd ⟨?_, [], [], rfl, ⟨?_, fun before m heq => ?_⟩, rfl, List.not_mem_nil⟩ (ho _)
    · rw [scheduler_nil]
      exact Bool.false_ne_true
    · rw [scheduler_nil]
      rfl
    · simp at heq

/-- **Every run keeps the alarms where they belong.** -/
theorem watched_history (interval : Nat) (moves : List Move) (s : ScopeId) :
    Watched interval true moves s := by
  induction moves using List.reverseRecOn with
  | nil => exact watched_nil interval s
  | append_singleton moves m ih =>
      rcases (history interval true moves).move_cases m with ⟨ms, rfl⟩ | ⟨r, rfl⟩ | ⟨hm, ha, hr⟩
      · exact ih.advance ms
      · exact ih.abandon r
      · rw [← history_concat] at ha
        exact ih.alters hm ha (by rw [history_concat]; exact hr s)

/-! ### Silence -/

/-- A scope that was started or ended and is not open is never open again. -/
theorem not_openSince_concat (hx : (history interval timed moves).db.scheduler.Known s)
    (hc : (history interval timed moves).db.scheduler.isStarted s ∨
      (history interval timed moves).db.scheduler.isEnded s)
    (ho : ∀ time, ¬ OpenSince interval timed moves s time) (m : Move) (time : Nat) :
    ¬ OpenSince interval timed (moves ++ [m]) s time := by
  rw [openSince_concat]
  rintro ⟨hne, ⟨ho', -⟩ | ⟨hns, -⟩⟩
  · exact ho time ho'
  · rcases hc with hs | he
    · exact hns hs
    · exact hne ((evolves_append interval timed moves [m]).ended s hx he)

/-- **Such a scope is silent for good.** -/
theorem rings_play_of_closed (hx : (history interval true moves).db.scheduler.Known s)
    (hc : (history interval true moves).db.scheduler.isStarted s ∨
      (history interval true moves).db.scheduler.isEnded s)
    (ho : ∀ time, ¬ OpenSince interval true moves s time) (later : List Move) :
    (history interval true (moves ++ later)).rings s = (history interval true moves).rings s := by
  induction later generalizing moves with
  | nil => rw [List.append_nil]
  | cons m later ih =>
      have hev := evolves_append interval true moves [m]
      rw [List.append_cons, ih (hev.known hx) (hc.imp (hev.started s) (hev.ended s hx))
        (not_openSince_concat hx hc ho m), history_concat,
        (watched_history interval moves s).rings_of_idle ho]

/-- Rings that are due are told of as warnings that are due. -/
theorem warnings_of_rings (hk : h.db.scheduler.kind? s = some x.kind)
    (hr : h.rings s = Scheduler.inSeconds (Alarm.ringsUpTo time x.interval h.clock)) :
    h.warnings s = dueWarnings s x time h.clock := by
  rw [warnings_eq hk, hr, Scheduler.inSeconds, Alarm.ringsUpTo, dueWarnings, List.map_map,
    List.map_map]
  rfl

/-- No other notice says that a scope is still open. -/
theorem unnoticed_stillOpen (interval : Nat) (timed : Bool) (moves : List Move) {kind : ScopeKind}
    {seconds : Nat} :
    .noticed (.stillOpen s kind seconds) ∉ (history interval timed moves).events := by
  intro he
  rcases exists_move_of_mem he with hfirst | ⟨before, m, later, -, hmem⟩
  · rw [events_opening] at hfirst
    simp at hfirst
  · obtain ⟨c, hh⟩ := ((opening interval timed).play before).db.exists_happens m
    obtain ⟨count, hcount⟩ := hh.noticed hmem
    cases hcount

/-- A notice that the scope is still open is one of its warnings. -/
theorem warnings_only {e : Event} (he : e ∈ (history interval true moves).events) {kind : ScopeKind}
    {seconds : Nat} (hn : Session.noticeOf? (history interval true moves).db e =
      some (.stillOpen s kind seconds)) :
    ∃ time, e = .scope (.rang s time seconds) ∧
      (time, .stillOpen s kind seconds) ∈ (history interval true moves).warnings s := by
  rcases Session.noticeOf?_stillOpen hn with ⟨time, rfl⟩ | rfl
  · refine ⟨time, rfl, List.mem_filterMap.mpr ⟨_, he, ?_⟩⟩
    simp [Event.warning?, hn]
  · exact absurd he (unnoticed_stillOpen interval true moves)

/-- **A scope is reported exactly while it is open and held.** -/
structure Warns (interval : Nat) (moves : List Move) (s : ScopeId) (x : Scope) : Prop where
  /-- A start opens the scope, unless it was ended before. -/
  opens : ¬ (history interval true moves).db.scheduler.isStarted s → ∀ m,
    (history interval true (moves ++ [m])).db.scheduler.isStarted s →
      ¬ (history interval true (moves ++ [m])).db.scheduler.isEnded s →
        OpenSince interval true (moves ++ [m]) s (history interval true (moves ++ [m])).clock
  /-- It stays open until it is ended or let go of. -/
  stays : ∀ opened, OpenSince interval true moves s opened → ∀ m,
    ¬ (history interval true (moves ++ [m])).db.scheduler.isEnded s → m ≠ .act (.abandon s) →
      OpenSince interval true (moves ++ [m]) s opened
  /-- As long as it is open, one warning was given for each interval since the start. -/
  due : ∀ opened, OpenSince interval true moves s opened →
    (history interval true moves).warnings s =
      dueWarnings s x opened (history interval true moves).clock
  /-- So it is after any further move, also after the one that ends the scope. -/
  next : ∀ opened, OpenSince interval true moves s opened → ∀ m,
    (history interval true (moves ++ [m])).warnings s =
      dueWarnings s x opened (history interval true (moves ++ [m])).clock
  /-- As long as it is not open, no move gives a warning. -/
  silent : (∀ opened, ¬ OpenSince interval true moves s opened) → ∀ m,
    (history interval true (moves ++ [m])).warnings s = (history interval true moves).warnings s
  /-- Before the start there was no warning. -/
  unstarted : ¬ (history interval true moves).db.scheduler.isStarted s →
    (history interval true moves).warnings s = []
  /-- After the end there is no other warning. -/
  ended : (history interval true moves).db.scheduler.isEnded s → ∀ later,
    (history interval true (moves ++ later)).warnings s = (history interval true moves).warnings s
  /-- A scope that was ended before its start is never reported. -/
  ended_early : (history interval true moves).db.scheduler.isEnded s →
    ¬ (history interval true moves).db.scheduler.isStarted s → ∀ later,
      (history interval true (moves ++ later)).warnings s = []
  /-- After the last handle of a started scope is gone there is no other warning. -/
  dropped : (history interval true moves).db.scheduler.isStarted s → ∀ later,
    (history interval true (moves ++ .act (.abandon s) :: later)).warnings s =
      (history interval true moves).warnings s
  /-- No other notice says that the scope is still open. -/
  only : ∀ e ∈ (history interval true moves).events, ∀ kind seconds,
    Session.noticeOf? (history interval true moves).db e = some (.stillOpen s kind seconds) →
      ∃ time, e = .scope (.rang s time seconds) ∧
        (time, .stillOpen s kind seconds) ∈ (history interval true moves).warnings s
  /-- It makes no difference whether time passes at once or in two parts. -/
  together : ∀ a b,
    (history interval true (moves ++ [.act (.advance a), .act (.advance b)])).db =
        (history interval true (moves ++ [.act (.advance (a + b))])).db ∧
      (history interval true (moves ++ [.act (.advance a), .act (.advance b)])).warnings s =
        (history interval true (moves ++ [.act (.advance (a + b))])).warnings s

section

variable (hx : (history interval true moves).db.scheduler.scope? s = some x)

include hx

/-- The scope is known. -/
theorem known_of_scope? : (history interval true moves).db.scheduler.Known s :=
  Scheduler.known_iff.mpr ⟨x, hx⟩

/-- Its kind stays the same. -/
theorem kind?_append (later : List Move) :
    (history interval true (moves ++ later)).db.scheduler.kind? s = some x.kind :=
  ((evolves_append interval true moves later).kind s (known_of_scope? hx)).trans
    (congrArg (Option.map Scope.kind) hx)

/-- A run that brings no ring gives no warning. -/
theorem warnings_append {later : List Move}
    (hr : (history interval true (moves ++ later)).rings s = (history interval true moves).rings s) :
    (history interval true (moves ++ later)).warnings s = (history interval true moves).warnings s := by
  have hkind := kind?_append hx []
  rw [List.append_nil] at hkind
  rw [warnings_eq (kind?_append hx later), warnings_eq hkind, hr]

/-- A scope that was not started gives no warning. -/
theorem warnings_unstarted (hs : ¬ (history interval true moves).db.scheduler.isStarted s) :
    (history interval true moves).warnings s = [] := by
  have hkind := kind?_append hx []
  rw [List.append_nil] at hkind
  rw [warnings_eq hkind, (watched_history interval moves s).unstarted hs, List.map_nil]

/-- A scope that was ended gives no more warnings. -/
theorem warnings_ended (he : (history interval true moves).db.scheduler.isEnded s)
    (later : List Move) : (history interval true (moves ++ later)).warnings s =
      (history interval true moves).warnings s :=
  warnings_append hx (rings_play_of_closed (known_of_scope? hx) (.inr he) (fun _ ho => ho.1 he) later)

/-- A scope that was let go of gives no more warnings. -/
theorem warnings_dropped (hs : (history interval true moves).db.scheduler.isStarted s)
    (later : List Move) :
    (history interval true (moves ++ .act (.abandon s) :: later)).warnings s =
      (history interval true moves).warnings s := by
  have hev := evolves_append interval true moves [.act (.abandon s)]
  refine warnings_append hx ?_
  rw [List.append_cons, rings_play_of_closed (hev.known (known_of_scope? hx))
    (.inl (hev.started s hs)) (fun _ ho => (openSince_abandon.mp ho).2 rfl), history_concat,
    rings_abandon]

/-- A scope that is open has given the warnings that are due. -/
theorem warnings_due {opened : Nat} (ho : OpenSince interval true moves s opened) :
    (history interval true moves).warnings s =
      dueWarnings s x opened (history interval true moves).clock :=
  warnings_of_rings (congrArg (Option.map Scope.kind) hx)
    ((watched_history interval moves s).opened x opened hx ho).2.2

/-- After one more move it has given the warnings that are due by then. -/
theorem warnings_next {opened : Nat} (ho : OpenSince interval true moves s opened) (m : Move) :
    (history interval true (moves ++ [m])).warnings s =
      dueWarnings s x opened (history interval true (moves ++ [m])).clock := by
  refine warnings_of_rings (kind?_append hx [m]) ?_
  rw [history_concat]
  exact (watched_history interval moves s).rings_of_open hx ho m

/-- A scope that is not open gives no warning in a move. -/
theorem warnings_silent (ho : ∀ opened, ¬ OpenSince interval true moves s opened) (m : Move) :
    (history interval true (moves ++ [m])).warnings s = (history interval true moves).warnings s := by
  refine warnings_append hx ?_
  rw [history_concat]
  exact (watched_history interval moves s).rings_of_idle ho m

/-- **It makes no difference whether time passes at once or in two parts.** -/
theorem warnings_together (a b : Nat) :
    (history interval true (moves ++ [.act (.advance a), .act (.advance b)])).db =
        (history interval true (moves ++ [.act (.advance (a + b))])).db ∧
      (history interval true (moves ++ [.act (.advance a), .act (.advance b)])).warnings s =
        (history interval true (moves ++ [.act (.advance (a + b))])).warnings s := by
  have htwo : history interval true (moves ++ [.act (.advance a), .act (.advance b)]) =
      ((history interval true moves).move (.act (.advance a))).move (.act (.advance b)) :=
    (history_play _ _ _ _).symm
  have hkind := kind?_append hx [.act (.advance a), .act (.advance b)]
  have hkind' := kind?_append hx [.act (.advance (a + b))]
  rw [htwo] at hkind ⊢
  rw [history_concat] at hkind' ⊢
  refine ⟨?_, ?_⟩
  · exact congrArg (fun scheduler => { (history interval true moves).db with scheduler })
      Scheduler.advance_advance
  · rw [warnings_eq hkind, warnings_eq hkind', rings_advance, rings_advance, rings_advance,
      List.append_assoc]
    exact congrArg (fun rings => ((history interval true moves).rings s ++ rings).map _)
      Scheduler.ringsOf_advance_advance

end

end History

/-- **Whoever lets go of scopes lets go of exactly those that no one holds**: not the session, no
table, no operation under way, no hook and not the chain. -/
theorem Session.letGo_eq (y : Session) :
    ∃ dropped : List ScopeId, (∀ r, r ∈ dropped ↔ y.db.scheduler.Known r ∧ ¬ y.holds r) ∧
      y.letGo.db = (y.db.run (dropped.map fun r => .act (.abandon r))).1 := by
  have hrun : ∀ (loose : List Nat) (db : Database),
      loose.foldl (fun db i => (db.act (.abandon ⟨i⟩)).1) db =
        (db.run (loose.map fun i => .act (.abandon ⟨i⟩))).1 := by
    intro loose
    induction loose with
    | nil => exact fun _ => rfl
    | cons i loose ih => exact fun db => ih _
  refine ⟨((List.range y.db.scheduler.scopes.length).filter fun i => !y.holds ⟨i⟩).map ScopeId.mk,
    fun r => ?_, ?_⟩
  · obtain ⟨i⟩ := r
    simp [Scheduler.Known]
  · rw [List.map_map]
    exact hrun _ _

namespace History

/-- **Warnings of open scopes are exact**, in every run with a clock and for every scope. A session
lets go of exactly the scopes that no one holds. -/
theorem warnings_exact (interval : Nat) (moves : List Move) (s : ScopeId) (x : Scope)
    (hx : (history interval true moves).db.scheduler.scope? s = some x) :
    Warns interval moves s x ∧ ∀ y : Session, ∃ dropped : List ScopeId,
      (∀ r, r ∈ dropped ↔ y.db.scheduler.Known r ∧ ¬ y.holds r) ∧
        y.letGo.db = (y.db.run (dropped.map fun r => .act (.abandon r))).1 where
  left := {
    opens := fun hns _ hs he => openSince_concat.mpr ⟨he, .inr ⟨hns, hs, rfl⟩⟩
    stays := fun _ ho _ he hm => openSince_concat.mpr ⟨he, .inl ⟨ho, hm⟩⟩
    due := fun _ ho => warnings_due hx ho
    next := fun _ ho m => warnings_next hx ho m
    silent := fun ho m => warnings_silent hx ho m
    unstarted := warnings_unstarted hx
    ended := warnings_ended hx
    ended_early := fun he hs later => (warnings_ended hx he later).trans (warnings_unstarted hx hs)
    dropped := warnings_dropped hx
    only := fun _ he _ _ hn => warnings_only he hn
    together := warnings_together hx }
  right := Session.letGo_eq

/-- A user scope that is open for 25 seconds is reported after 10 and after 20 seconds, and no more after
its end, however long that is ago. -/
theorem warnings_exact_ten_seconds :
    OpenSince 10000 true
        [.act (.create .user 10000), .act (.start ⟨1⟩), .act (.advance 25000)] ⟨1⟩ 0 ∧
      ∀ later, (history 10000 true ([.act (.create .user 10000), .act (.start ⟨1⟩),
          .act (.advance 25000), .act (.finish ⟨1⟩)] ++ later)).warnings ⟨1⟩ =
        [(10000, .stillOpen ⟨1⟩ .user 10), (20000, .stillOpen ⟨1⟩ .user 20)] := by
  let before : List Move :=
    [.act (.create .user 10000), .act (.start ⟨1⟩), .act (.advance 25000)]
  have hscope : ((history 10000 true before).db.scheduler.scope? ⟨1⟩).map
      (fun x => (x.kind, x.interval)) = some (.user, 10000) := by decide +kernel
  obtain ⟨x, hx, hkind⟩ := Option.map_eq_some_iff.mp hscope
  obtain ⟨hkind, hinterval⟩ := Prod.mk.inj hkind
  have hopen : OpenSince 10000 true before ⟨1⟩ 0 := by
    refine ⟨by decide +kernel, [.act (.create .user 10000), .act (.start ⟨1⟩)],
      [.act (.advance 25000)], rfl, ⟨by decide +kernel, fun first m heq => ?_⟩, by decide +kernel,
      by simp⟩
    have hsplit : [Move.act (.create .user 10000)] ++ [.act (.start ⟨1⟩)] = first ++ [m] := heq
    obtain ⟨rfl, -⟩ := List.append_inj' hsplit rfl
    decide +kernel
  have hnext := (warnings_exact 10000 before ⟨1⟩ x hx).1.next 0 hopen (.act (.finish ⟨1⟩))
  have hclock : (history 10000 true (before ++ [.act (.finish ⟨1⟩)])).clock = 25000 := by
    decide +kernel
  have hended : (history 10000 true (before ++ [.act (.finish ⟨1⟩)])).db.scheduler.isEnded ⟨1⟩ := by
    decide +kernel
  obtain ⟨y, hy⟩ := Scheduler.known_iff.mp
    ((evolves_append 10000 true before [.act (.finish ⟨1⟩)]).known (known_of_scope? hx))
  refine ⟨hopen, fun later => ((warnings_exact 10000 _ ⟨1⟩ y hy).1.ended hended later).trans ?_⟩
  rw [hnext, dueWarnings, hclock, hkind, hinterval]
  rfl

end History

end ScopedSql
