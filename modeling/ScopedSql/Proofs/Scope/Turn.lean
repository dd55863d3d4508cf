import Mathlib.Data.List.Chain
import ScopedSql.Proofs.Scope.Signals

/-!
# How a turn is passed on

A scope that is over passes its turn to its successor: its one hook starts the successor, and, if
that one was ended early, the turn goes on from there. `Passes` says so along a list of scopes,
without hooks and agendas, and `exists_passes` finds it in every run of the agenda: where each scope
of a list is linked to the next one (`LinkedTo`), working off the hook of the scope before the list
is passing the turn along the list.

The rest of the module reads off what a turn changes (`Passes.isEnded`, `Passes.linked`,
`Passes.inOrder`, `Passes.mem_pending`).
-/

namespace ScopedSql

namespace Scheduler

variable {w v : Scheduler} {s t r : ScopeId} {rest : List ScopeId} {events : List ScopeEvent}

/-! ### Working off one job -/

/-- A result with events before it. -/
def emit (events : List ScopeEvent) (r : Scheduler × List ScopeEvent) :
    Scheduler × List ScopeEvent :=
  (r.1, events ++ r.2)

@[simp] theorem emit_nil (r : Scheduler × List ScopeEvent) : emit [] r = r := rfl

@[simp] theorem emit_emit (a b : List ScopeEvent) (r : Scheduler × List ScopeEvent) :
    emit a (emit b r) = emit (a ++ b) r := by
  simp [emit]

@[simp] theorem run_nil (w : Scheduler) : w.run [] = (w, []) := by
  rw [run]

/-- Working off an agenda is taking its first step and working off what is left. -/
theorem run_cons (w : Scheduler) (j : Job) (jobs : List Job) :
    w.run (j :: jobs) =
      emit (w.step j).events ((w.step j).scheduler.run ((w.step j).jobs ++ jobs)) := by
  rw [run]
  rfl

/-- The hooks of a scope as jobs. -/
def due (w : Scheduler) (s : ScopeId) : List Job := (w.hooksOf s).map (.hook s)

/-- A start that comes too late is refused. -/
theorem step_start_refused (h : w.isStarted s) :
    w.step (.command (.start s)) = ⟨w, [], [.refused s]⟩ := by
  obtain ⟨x, hx⟩ := known_iff.mp (known_of_isStarted h)
  have hs : x.started = true := by simpa [isStarted, hx] using h
  simp [step, hx, startStep, hs]

/-- A start sets the signal. If the scope was ended before, its hooks come next. -/
theorem step_start (hk : w.Known s) (h : ¬ w.isStarted s) :
    w.step (.command (.start s)) =
      ⟨w.markStarted s, if w.isEnded s then w.due s else [], [.started s]⟩ := by
  obtain ⟨x, hx⟩ := known_iff.mp hk
  have hs : x.started = false := by simpa [isStarted, hx] using h
  have he : w.isEnded s = x.ended := by simp [isEnded, hx]
  have hd : w.due s = x.hooks.map (.hook s) := by simp [due, hooksOf, hx]
  rw [he, hd]
  cases hxe : x.ended with
  | true =>
      have hm : w.markStarted s = w.modify s fun x => { x with started := true, hooks := [] } :=
        modify_congr hx (by simp [opening, hxe])
      simp [step, hx, startStep, hs, hxe, hm]
  | false =>
      have hm : w.markStarted s =
          w.modify s fun x => { x with started := true, alarm := w.alarmFor x } :=
        modify_congr hx (by simp [opening, hxe])
      simp [step, hx, startStep, hs, hxe, hm]

/-- An end that is not the first one does nothing. -/
theorem step_finish_again (h : w.isEnded s) : w.step (.command (.finish s)) = ⟨w, [], []⟩ := by
  cases hx : w.scope? s with
  | none => simp [step, hx]
  | some x =>
      have he : x.ended = true := by simpa [isEnded, hx] using h
      simp [step, hx, finishStep, he]

/-- An end sets the signal. If the scope was started before, its hooks come next. -/
theorem step_finish (h : ¬ w.isEnded s) :
    w.step (.command (.finish s)) =
      ⟨w.markEnded s, if w.isStarted s then w.due s else [], [.ended s]⟩ := by
  obtain ⟨x, hx⟩ := known_iff.mp (known_of_not_isEnded h)
  have he : x.ended = false := by simpa [isEnded, hx] using h
  have hs : w.isStarted s = x.started := by simp [isStarted, hx]
  have hd : w.due s = x.hooks.map (.hook s) := by simp [due, hooksOf, hx]
  rw [hs, hd]
  cases hxs : x.started with
  | true =>
      have hm : w.markEnded s =
          w.modify s fun x => { x with ended := true, alarm := none, hooks := [] } :=
        modify_congr hx (by simp [closing, hxs])
      simp [step, hx, finishStep, he, hxs, hm]
  | false =>
      have hm : w.markEnded s = w.modify s fun x => { x with ended := true, alarm := none } :=
        modify_congr hx (by simp [closing, hxs])
      simp [step, hx, finishStep, he, hxs, hm]

/-- A hook that is registered on a scope that is over comes next. -/
theorem step_onEnd_over (h : w.isOver s) (hook : Hook) :
    w.step (.command (.onEnd s hook)) = ⟨w, [.hook s hook], [.registered s hook.label]⟩ := by
  rw [isOver_iff] at h
  obtain ⟨x, hx⟩ := known_iff.mp (known_of_isStarted h.1)
  have ho : x.isOver = true := by simpa [isStarted, isEnded, hx, Scope.isOver] using h
  simp [step, hx, onEndStep, ho]

/-- A hook that is registered on any other scope waits. -/
theorem step_onEnd (hk : w.Known s) (h : ¬ w.isOver s) (hook : Hook) :
    w.step (.command (.onEnd s hook)) =
      ⟨w.addHook s hook, [], [.registered s hook.label]⟩ := by
  obtain ⟨x, hx⟩ := known_iff.mp hk
  have ho : x.isOver = false := by
    simpa [isOver, isStarted, isEnded, hx, Scope.isOver] using h
  simp [step, hx, onEndStep, ho, addHook]

/-- The start of a scope that was started is refused, and the run goes on. -/
theorem run_start_refused (h : w.isStarted s) (jobs : List Job) :
    w.run (.command (.start s) :: jobs) = emit [.refused s] (w.run jobs) := by
  rw [run_cons, step_start_refused h]
  rfl

/-- The start of a scope that was not: if it was ended before, its hooks are due first. -/
theorem run_start (hk : w.Known s) (h : ¬ w.isStarted s) (jobs : List Job) :
    w.run (.command (.start s) :: jobs) =
      emit [.started s] ((w.markStarted s).run ((if w.isEnded s then w.due s else []) ++ jobs)) := by
  rw [run_cons, step_start hk h]

/-- The end of a scope that was ended does nothing, and the run goes on. -/
theorem run_finish_again (h : w.isEnded s) (jobs : List Job) :
    w.run (.command (.finish s) :: jobs) = w.run jobs := by
  rw [run_cons, step_finish_again h]
  rfl

/-- The end of a scope that was not: if it was started before, its hooks are due first. -/
theorem run_finish (h : ¬ w.isEnded s) (jobs : List Job) :
    w.run (.command (.finish s) :: jobs) =
      emit [.ended s] ((w.markEnded s).run ((if w.isStarted s then w.due s else []) ++ jobs)) := by
  rw [run_cons, step_finish h]

/-- A hook of a scope that is over is registered and run at once. -/
theorem run_onEnd_over (h : w.isOver s) (hook : Hook) (jobs : List Job) :
    w.run (.command (.onEnd s hook) :: jobs) =
      emit [.registered s hook.label] (w.run (.hook s hook :: jobs)) := by
  rw [run_cons, step_onEnd_over h]
  rfl

/-- A hook of a scope that is not over is registered and waits. -/
theorem run_onEnd (hk : w.Known s) (h : ¬ w.isOver s) (hook : Hook) (jobs : List Job) :
    w.run (.command (.onEnd s hook) :: jobs) =
      emit [.registered s hook.label] ((w.addHook s hook).run jobs) := by
  rw [run_cons, step_onEnd hk h]
  rfl

/-- A hook is run by running its commands. -/
theorem run_hook (w : Scheduler) (s : ScopeId) (hook : Hook) (jobs : List Job) :
    w.run (.hook s hook :: jobs) =
      emit [.fired s hook.label] (w.run (hook.body.map .command ++ jobs)) := by
  rw [run_cons]
  rfl

/-! ### Passing the turn -/

/-- The hook that links a scope to the one after it. -/
def link (w : Scheduler) (s t : ScopeId) : Hook :=
  if w.kind? s = some .user then userHook s t else communityHook t

/-- A user scope leaves the list of pending ones, if anyone has that list. -/
def leave (w : Scheduler) (s : ScopeId) : Scheduler :=
  if w.kind? s = some .user ∧ w.owned then { w with pending := w.pending.filter (· ≠ s) } else w

@[simp] theorem scopes_leave : (w.leave s).scopes = w.scopes := by
  unfold leave; split <;> rfl

/-- Leaving the list of pending scopes changes no scope. -/
theorem agree_leave : w.Agree (w.leave s) := .of_scopes scopes_leave

/-- **The turn is passed on** from a scope that is over, along the scopes that follow it. The
successor is started, unless someone else has done so; if it was ended before, it is over now and
passes the turn on in its place. A user scope leaves the list of pending ones afterwards. -/
inductive Passes : Scheduler → ScopeId → List ScopeId → Scheduler → List ScopeEvent → Prop
  /-- No scope follows. -/
  | last {w : Scheduler} {s : ScopeId} : Passes w s [] w []
  /-- The successor was started by someone else. -/
  | refused {w : Scheduler} {s t : ScopeId} {rest : List ScopeId} :
      w.isStarted t → Passes w s (t :: rest) (w.leave s) [.fired s t.number, .refused t]
  /-- The successor is open now. -/
  | opened {w : Scheduler} {s t : ScopeId} {rest : List ScopeId} :
      ¬ w.isStarted t → ¬ w.isEnded t →
        Passes w s (t :: rest) ((w.markStarted t).leave s) [.fired s t.number, .started t]
  /-- The successor was ended early: the turn goes on from it. -/
  | onward {w v : Scheduler} {s t : ScopeId} {rest : List ScopeId} {events : List ScopeEvent} :
      w.Known t → ¬ w.isStarted t → w.isEnded t → Passes (w.markStarted t) t rest v events →
        Passes w s (t :: rest) (v.leave s) (.fired s t.number :: .started t :: events)

/-- A scope is linked to the next one: it holds the hook that will start it, or it is over, has
given its hook away and the next one was started. -/
structure LinkedTo (w : Scheduler) (s t : ScopeId) : Prop where
  /-- Before the scope is over, the turn is still to be passed. -/
  waiting : ¬ w.isOver s → w.hooksOf s = [w.link s t]
  /-- After that it has been passed. -/
  passed : w.isOver s → w.hooksOf s = [] ∧ w.isStarted t

/-- A link depends on nothing but the scope itself and the start of the next one. -/
theorem LinkedTo.frame (h : w.LinkedTo s t) (hk : v.kind? s = w.kind? s)
    (ho : v.isOver s ↔ w.isOver s) (hh : v.hooksOf s = w.hooksOf s)
    (ht : w.isStarted t → v.isStarted t) : v.LinkedTo s t where
  waiting hv := by
    rw [hh, link, hk]
    exact h.waiting (mt ho.mpr hv)
  passed hv := by
    rw [hh]
    exact ⟨(h.passed (ho.mp hv)).1, ht (h.passed (ho.mp hv)).2⟩

/-- Where two schedulers agree, the same scopes are linked. -/
theorem Agree.isChain_linkedTo {l : List ScopeId} (ha : w.Agree v) (h : l.IsChain w.LinkedTo) :
    l.IsChain v.LinkedTo :=
  h.imp fun a b hab => hab.frame (ha.kind a) (by rw [ha.isOver]) (ha.hooks a)
    (by rw [ha.started]; exact id)

/-- The jobs by which a scope that is over passes its turn. -/
def turn (w : Scheduler) (s : ScopeId) : List ScopeId → List Job
  | [] => []
  | t :: _ => [.hook s (w.link s t)]

/-- The jobs by which a user scope leaves the list of pending ones. -/
def leaving (w : Scheduler) (s : ScopeId) : List Job :=
  if w.kind? s = some .user then [.command (.retire s)] else []

/-- The jobs of leaving do just that. -/
theorem run_leaving (jobs : List Job) : w.run (w.leaving s ++ jobs) = (w.leave s).run jobs := by
  unfold leaving leave
  by_cases hu : w.kind? s = some .user
  · rw [if_pos hu, List.singleton_append, run_cons]
    simp [step, hu]
  · simp [hu]

/-- The hook of a link starts the next scope, and a user scope leaves after that. -/
theorem run_link (jobs : List Job) :
    w.run (.hook s (w.link s t) :: jobs) =
      emit [.fired s t.number] (w.run (.command (.start t) :: (w.leaving s ++ jobs))) := by
  rw [run_hook]
  unfold link leaving
  split <;> rfl

/-- No scope changes its kind when a turn is passed on. -/
theorem Passes.kind? (h : Passes w s rest v events) : v.kind? r = w.kind? r := by
  induction h with
  | last => rfl
  | refused => exact agree_leave.kind r
  | opened => rw [agree_leave.kind, kind?_markStarted]
  | onward _ _ _ _ ih => rw [agree_leave.kind, ih, kind?_markStarted]

/-! ### One signal is set -/

/-- **One scope gets a signal**, and gives its hooks away if it is over now. -/
structure Marks (w m : Scheduler) (s : ScopeId) : Prop where
  /-- The signal was missing. -/
  before : ¬ w.isOver s
  /-- Kinds stay. -/
  kind : ∀ r, m.kind? r = w.kind? r
  /-- Start signals stay. -/
  started : ∀ r, w.isStarted r → m.isStarted r
  /-- No other scope becomes over. -/
  isOver : ∀ r, r ≠ s → (m.isOver r ↔ w.isOver r)
  /-- No other scope loses hooks. -/
  others : ∀ r, r ≠ s → m.hooksOf r = w.hooksOf r
  /-- The scope itself keeps its hooks as long as it is not over. -/
  hooks : m.hooksOf s = if m.isOver s then [] else w.hooksOf s

/-- A start marks its scope. -/
theorem marks_markStarted (hk : w.Known s) (h : ¬ w.isStarted s) : w.Marks (w.markStarted s) s where
  before := by rw [isOver_iff]; exact fun ho => h ho.1
  kind _ := kind?_markStarted
  started _ := evolves_markStarted.started _
  isOver r hr := by rw [isOver_markStarted]; simp [hr]
  others r hr := by rw [hooksOf_markStarted]; simp [hr]
  hooks := by
    have ho : (w.markStarted s).isOver s ↔ w.isEnded s := by
      simp [isOver_iff, h, hk]
    simp [ho]

/-- An end marks its scope. -/
theorem marks_markEnded (h : ¬ w.isEnded s) : w.Marks (w.markEnded s) s where
  before := by rw [isOver_iff]; exact fun ho => h ho.2
  kind _ := kind?_markEnded
  started _ := evolves_markEnded.started _
  isOver r hr := by rw [isOver_markEnded]; simp [hr]
  others r hr := by rw [hooksOf_markEnded]; simp [hr]
  hooks := by
    have ho : (w.markEnded s).isOver s ↔ w.isStarted s := by
      simp [isOver_iff, h]
    simp [ho]

/-- A scope that was ended early is over once it is started. -/
theorem isOver_markStarted_self (hk : w.Known s) (he : w.isEnded s) :
    (w.markStarted s).isOver s := by
  rw [isOver_iff, isStarted_markStarted, isEnded_markStarted]
  exact ⟨.inr ⟨rfl, hk⟩, he⟩

/-- No hook is registered. -/
theorem Marks.hooksOf_nil {m : Scheduler} (hm : w.Marks m s) (hr : w.hooksOf r = []) :
    m.hooksOf r = [] := by
  by_cases hrs : r = s
  · subst hrs
    rw [hm.hooks, hr, ite_self]
  · rw [hm.others r hrs, hr]

/-- Other scopes keep their links. -/
theorem Marks.linkedTo_of_ne {m : Scheduler} {a b : ScopeId} (hm : w.Marks m s) (ha : a ≠ s)
    (h : w.LinkedTo a b) : m.LinkedTo a b :=
  h.frame (hm.kind a) (hm.isOver a ha) (hm.others a ha) (hm.started b)

/-- As long as the other signal is missing, all scopes keep their links. -/
theorem Marks.linkedTo_of_not_isOver {m : Scheduler} {a b : ScopeId} (hm : w.Marks m s)
    (ho : ¬ m.isOver s) (h : w.LinkedTo a b) : m.LinkedTo a b := by
  by_cases ha : a = s
  · subst ha
    refine h.frame (hm.kind a) ?_ (by rw [hm.hooks, if_neg ho]) (hm.started b)
    exact ⟨fun h => absurd h ho, fun h => absurd h hm.before⟩
  · exact hm.linkedTo_of_ne ha h

/-! ### A stretch of the chain -/

/-- **Scopes are strung together**: each is linked to the next one, and the last one holds no
hook. -/
structure Strung (w : Scheduler) (l : List ScopeId) : Prop where
  /-- No scope occurs twice. -/
  nodup : l.Nodup
  /-- All scopes are there. -/
  known : ∀ r ∈ l, w.Known r
  /-- Neighbours are linked. -/
  linked : l.IsChain w.LinkedTo
  /-- Nothing is to follow the last scope. -/
  bare : ∀ r ∈ l.getLast?, w.hooksOf r = []

/-- Scopes at the end of a string are strung together. -/
theorem Strung.suffix (before : List ScopeId) (h : w.Strung (before ++ rest)) : w.Strung rest where
  nodup := (List.nodup_append.mp h.nodup).2.1
  known r hr := h.known r (List.mem_append_right _ hr)
  linked := h.linked.right_of_append
  bare r hr := by
    refine h.bare r ?_
    rw [List.getLast?_append, Option.mem_def.mp hr]
    rfl

/-- A scope that is not over holds the hook of its link, or none if it is the last one. -/
theorem Strung.due_eq (h : w.Strung (s :: rest)) (ho : ¬ w.isOver s) : w.due s = w.turn s rest := by
  cases rest with
  | nil => simp [due, turn, h.bare s rfl]
  | cons t rest => simp [due, turn, (List.isChain_cons_cons.mp h.linked).1.waiting ho]

/-- A signal to a scope elsewhere leaves a stretch as it is. -/
theorem Marks.strung {m : Scheduler} (hm : w.Marks m s) (hs : s ∉ rest) (h : w.Strung rest) :
    m.Strung rest where
  nodup := h.nodup
  known r hr := by
    rw [known_iff_kind?, hm.kind]
    exact known_iff_kind?.mp (h.known r hr)
  linked := h.linked.imp_of_mem_imp fun a b ha _ hab => by
    have hne : a ≠ s := by rintro rfl; exact hs ha
    exact hm.linkedTo_of_ne hne hab
  bare r hr := hm.hooksOf_nil (h.bare r hr)

/-- **Working off the hook of a scope passes its turn along the scopes that are strung behind
it**, and then the rest of the agenda is worked off. -/
theorem exists_passes (h : w.Strung rest) (jobs : List Job) :
    ∃ v events, Passes w s rest v events ∧
      w.run (w.turn s rest ++ jobs) = emit events (v.run jobs) := by
  induction rest generalizing w s jobs with
  | nil => exact ⟨w, [], .last, by simp [turn]⟩
  | cons t rest ih =>
      rw [turn, List.singleton_append, run_link]
      have hk : w.Known t := h.known t List.mem_cons_self
      by_cases hs : w.isStarted t
      · refine ⟨w.leave s, _, .refused hs, ?_⟩
        rw [run_start_refused hs, run_leaving, emit_emit]
        rfl
      -- leaving comes last, in a scheduler that tells the kind of `s` as this one does
      have hleave : ∀ {u : Scheduler}, u.kind? s = w.kind? s → ∀ jobs,
          u.run (w.leaving s ++ jobs) = (u.leave s).run jobs := by
        intro u hu jobs
        rw [← run_leaving, leaving, leaving, hu]
      have hm := marks_markStarted hk hs
      rw [run_start hk hs]
      by_cases he : w.isEnded t
      · have hdue : w.due t = (w.markStarted t).turn t rest := by
          rw [h.due_eq hm.before]
          cases rest with
          | nil => rfl
          | cons t' rest => simp [turn, link]
        have htail : (w.markStarted t).Strung rest :=
          hm.strung (List.nodup_cons.mp h.nodup).1 (Strung.suffix [t] h)
        obtain ⟨v, events, hp, hrun⟩ := ih (s := t) htail (w.leaving s ++ jobs)
        refine ⟨v.leave s, _, .onward hk hs he hp, ?_⟩
        rw [if_pos he, hdue, hrun, hleave (by rw [hp.kind?, kind?_markStarted]), emit_emit,
          emit_emit]
        rfl
      · refine ⟨(w.markStarted t).leave s, _, .opened hs he, ?_⟩
        rw [if_neg he, List.nil_append, hleave kind?_markStarted, emit_emit]
        rfl

/-! ### What a turn changes -/

/-- A turn ends no scope. -/
theorem Passes.isEnded (h : Passes w s rest v events) : v.isEnded r = w.isEnded r := by
  induction h with
  | last => rfl
  | refused => exact agree_leave.ended r
  | opened => rw [agree_leave.ended, isEnded_markStarted]
  | onward _ _ _ _ ih => rw [agree_leave.ended, ih, isEnded_markStarted]

/-- A turn takes no start back. -/
theorem Passes.isStarted (h : Passes w s rest v events) (hr : w.isStarted r) : v.isStarted r := by
  induction h with
  | last => exact hr
  | refused => rw [agree_leave.started]; exact hr
  | opened => rw [agree_leave.started]; exact evolves_markStarted.started r hr
  | onward _ _ _ _ ih => rw [agree_leave.started]; exact ih (evolves_markStarted.started r hr)

/-- A turn starts scopes of its list only. -/
theorem Passes.isStarted_iff (h : Passes w s rest v events) (hr : r ∉ rest) :
    v.isStarted r ↔ w.isStarted r := by
  induction h with
  | last => rfl
  | refused => rw [agree_leave.started]
  | opened =>
      rw [agree_leave.started, isStarted_markStarted]
      simp [List.ne_of_not_mem_cons hr]
  | onward _ _ _ _ ih =>
      rw [agree_leave.started, ih (List.not_mem_of_not_mem_cons hr), isStarted_markStarted]
      simp [List.ne_of_not_mem_cons hr]

/-- A turn takes hooks off scopes of its list only. -/
theorem Passes.hooksOf_eq (h : Passes w s rest v events) (hr : r ∉ rest) :
    v.hooksOf r = w.hooksOf r := by
  induction h with
  | last => rfl
  | refused => exact agree_leave.hooks r
  | opened =>
      rw [agree_leave.hooks, hooksOf_markStarted]
      simp [List.ne_of_not_mem_cons hr]
  | onward _ _ _ _ ih =>
      rw [agree_leave.hooks, ih (List.not_mem_of_not_mem_cons hr), hooksOf_markStarted]
      simp [List.ne_of_not_mem_cons hr]

/-- A turn registers no hook. -/
theorem Passes.hooksOf_nil (h : Passes w s rest v events) (hr : w.hooksOf r = []) :
    v.hooksOf r = [] := by
  induction h with
  | last => exact hr
  | refused => rw [agree_leave.hooks]; exact hr
  | opened => rw [agree_leave.hooks, hooksOf_markStarted, hr, ite_self]
  | onward _ _ _ _ ih =>
      rw [agree_leave.hooks]
      exact ih (by rw [hooksOf_markStarted, hr, ite_self])

/-- When a turn is passed on along some scopes, no other scope gets over. -/
theorem Passes.isOver_iff (h : Passes w s rest v events) (hr : r ∉ rest) :
    v.isOver r ↔ w.isOver r := by
  rw [Scheduler.isOver_iff, Scheduler.isOver_iff, h.isStarted_iff hr, h.isEnded]

/-- A scheduler evolves when a turn is passed on. -/
theorem Passes.evolves (h : Passes w s rest v events) : w.Evolves v where
  kind _ _ := h.kind?
  started _ := h.isStarted
  ended _ _ hr := by rw [h.isEnded]; exact hr

/-- A turn concerns neither the current community scope nor who has the scheduler. -/
theorem Passes.settings (h : Passes w s rest v events) :
    v.community = w.community ∧ v.closed = w.closed ∧ v.owned = w.owned := by
  have hleave : ∀ (u : Scheduler) (s : ScopeId),
      (u.leave s).community = u.community ∧ (u.leave s).closed = u.closed ∧
        (u.leave s).owned = u.owned := by
    intro u s
    unfold leave
    split <;> exact ⟨rfl, rfl, rfl⟩
  induction h with
  | last => exact ⟨rfl, rfl, rfl⟩
  | refused => exact hleave _ _
  | opened => exact hleave _ _
  | @onward w v s t rest events _ _ _ _ ih =>
      obtain ⟨h₁, h₂, h₃⟩ := hleave v s
      exact ⟨h₁.trans ih.1, h₂.trans ih.2.1, h₃.trans ih.2.2⟩

/-- **The turn leaves the scopes linked**, the one that passed it included. -/
theorem Passes.linked (h : Passes w s rest v events) (hn : (s :: rest).Nodup)
    (hl : rest.IsChain w.LinkedTo) (ho : w.isOver s) (hh : w.hooksOf s = []) :
    (s :: rest).IsChain v.LinkedTo := by
  induction h with
  | last => exact List.isChain_singleton _
  | refused hs =>
      refine agree_leave.isChain_linkedTo (List.isChain_cons_cons.mpr ⟨⟨?_, ?_⟩, hl⟩)
      · exact fun h => absurd ho h
      · exact fun _ => ⟨hh, hs⟩
  | @opened w s t rest hs he =>
      have hk := known_of_not_isEnded he
      have hm := marks_markStarted hk hs
      have hov : ¬ (w.markStarted t).isOver t := by
        rw [Scheduler.isOver_iff, isEnded_markStarted]
        exact fun h => he h.2
      have hst : s ≠ t := List.ne_of_not_mem_cons (List.nodup_cons.mp hn).1
      refine agree_leave.isChain_linkedTo (List.isChain_cons_cons.mpr ⟨⟨?_, ?_⟩, ?_⟩)
      · exact fun h => absurd ((hm.isOver s hst).mpr ho) h
      · intro _
        rw [hm.others s hst]
        exact ⟨hh, isStarted_markStarted.mpr (.inr ⟨rfl, hk⟩)⟩
      · exact hl.imp fun a b hab => hm.linkedTo_of_not_isOver hov hab
  | @onward w v s t rest events hk hs he hp ih =>
      have hm := marks_markStarted hk hs
      have hov : (w.markStarted t).isOver t := isOver_markStarted_self hk he
      obtain ⟨hsn, hn'⟩ := List.nodup_cons.mp hn
      obtain ⟨htn, -⟩ := List.nodup_cons.mp hn'
      have hst : s ≠ t := List.ne_of_not_mem_cons hsn
      have hsr := List.not_mem_of_not_mem_cons hsn
      have hl' : rest.IsChain (w.markStarted t).LinkedTo :=
        hl.tail.imp_of_mem_imp fun a b ha _ hab => by
          have hat : a ≠ t := by rintro rfl; exact htn ha
          exact hm.linkedTo_of_ne hat hab
      have hrest := ih hn' hl' hov (by rw [hm.hooks, if_pos hov])
      refine agree_leave.isChain_linkedTo (List.isChain_cons_cons.mpr ⟨⟨?_, ?_⟩, hrest⟩)
      · exact fun h => absurd ((hp.isOver_iff hsr).mpr ((hm.isOver s hst).mpr ho)) h
      · intro _
        rw [hp.hooksOf_eq hsr, hm.others s hst]
        exact ⟨hh, hp.isStarted (isStarted_markStarted.mpr (.inr ⟨rfl, hk⟩))⟩

/-- A scope stands in order behind another one: it was not started before that one was over. -/
def InOrder (w : Scheduler) (s t : ScopeId) : Prop := w.isStarted t → w.isOver s

/-- Scopes that were not started are in order. -/
theorem isChain_inOrder (h : ∀ r ∈ rest, ¬ w.isStarted r) : (s :: rest).IsChain w.InOrder := by
  induction rest generalizing s with
  | nil => exact List.isChain_singleton _
  | cons t rest ih =>
      refine List.isChain_cons_cons.mpr ⟨fun ht => absurd ht (h t List.mem_cons_self), ?_⟩
      exact ih fun r hr => h r (List.mem_cons_of_mem _ hr)

/-- Where two schedulers agree, the same chains are in order. -/
theorem Agree.isChain_inOrder {l : List ScopeId} (ha : w.Agree v) (h : l.IsChain w.InOrder) :
    l.IsChain v.InOrder :=
  h.imp fun a b hab hb => by
    rw [ha.started] at hb
    rw [ha.isOver]
    exact hab hb

/-- A start of one scope starts no other one. -/
theorem not_isStarted_markStarted (hf : ∀ r ∈ t :: rest, ¬ w.isStarted r) (ht : t ∉ rest) :
    ∀ r ∈ rest, ¬ (w.markStarted t).isStarted r := by
  intro r hr hst
  have hrt : r ≠ t := by rintro rfl; exact ht hr
  rw [isStarted_markStarted] at hst
  exact hst.elim (hf r (List.mem_cons_of_mem _ hr)) fun h => hrt h.1

/-- **Where no one else has started a scope, the turn keeps the order** and is refused nowhere. -/
theorem Passes.inOrder (h : Passes w s rest v events) (hn : (s :: rest).Nodup) (ho : w.isOver s)
    (hf : ∀ r ∈ rest, ¬ w.isStarted r) :
    (s :: rest).IsChain v.InOrder ∧ ∀ r, .refused r ∉ events := by
  induction h with
  | last => exact ⟨List.isChain_singleton _, fun _ => List.not_mem_nil⟩
  | refused hs => exact absurd hs (hf _ List.mem_cons_self)
  | @opened w s t rest hs he =>
      have hst : s ≠ t := List.ne_of_not_mem_cons (List.nodup_cons.mp hn).1
      obtain ⟨htn, -⟩ := List.nodup_cons.mp (List.nodup_cons.mp hn).2
      refine ⟨agree_leave.isChain_inOrder (List.isChain_cons_cons.mpr ⟨fun _ => ?_, ?_⟩), by simp⟩
      · exact evolves_markStarted.isOver ho
      · exact isChain_inOrder (not_isStarted_markStarted hf htn)
  | @onward w v s t rest events hk hs he hp ih =>
      obtain ⟨hsn, hn'⟩ := List.nodup_cons.mp hn
      obtain ⟨htn, -⟩ := List.nodup_cons.mp hn'
      have hov : (w.markStarted t).isOver t := isOver_markStarted_self hk he
      obtain ⟨hchain, hevents⟩ := ih hn' hov (not_isStarted_markStarted hf htn)
      refine ⟨agree_leave.isChain_inOrder (List.isChain_cons_cons.mpr ⟨fun _ => ?_, hchain⟩), ?_⟩
      · exact hp.evolves.isOver (evolves_markStarted.isOver ho)
      · simpa using hevents

/-! ### The list of pending scopes -/

/-- No scope becomes pending by leaving. -/
theorem pending_leave_sublist : (w.leave s).pending.Sublist w.pending := by
  unfold leave
  split
  · exact List.filter_sublist
  · exact List.Sublist.refl _

/-- No other scope leaves the list of pending ones. -/
theorem mem_pending_leave (h : r ∈ w.pending) (hr : r ≠ s) : r ∈ (w.leave s).pending := by
  unfold leave
  split
  · exact List.mem_filter.mpr ⟨h, by simpa using hr⟩
  · exact h

/-- A turn puts nothing on the list. -/
theorem Passes.pending_sublist (h : Passes w s rest v events) : v.pending.Sublist w.pending := by
  induction h with
  | last => exact List.Sublist.refl _
  | refused => exact pending_leave_sublist
  | opened => exact pending_leave_sublist
  | onward _ _ _ _ ih => exact pending_leave_sublist.trans ih

/-- A turn strikes only scopes that are over. -/
theorem Passes.mem_pending (h : Passes w s rest v events) (ho : w.isOver s) (hr : r ∈ w.pending) :
    r ∈ v.pending ∨ v.isOver r := by
  by_cases hrs : r = s
  · subst hrs
    exact .inr (h.evolves.isOver ho)
  induction h with
  | last => exact .inl hr
  | refused => exact .inl (mem_pending_leave hr hrs)
  | opened => exact .inl (mem_pending_leave hr hrs)
  | @onward w v s t rest events hk hs he hp ih =>
      have hov : (w.markStarted t).isOver t := isOver_markStarted_self hk he
      by_cases hrt : r = t
      · subst hrt
        rw [agree_leave.isOver]
        exact .inr (hp.evolves.isOver hov)
      · rw [agree_leave.isOver]
        exact (ih hov hr hrt).imp_left fun h => mem_pending_leave h hrs

end Scheduler

end ScopedSql
