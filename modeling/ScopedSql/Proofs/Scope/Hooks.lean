import ScopedSql.Proofs.Scope.Log

/-!
# Hooks run once

A hook is registered on a scope by a command and runs when both signals of the scope are set:
inside the call that sets the second one if it was registered before, inside its own registration
otherwise. Hooks are commands themselves, so all this can happen while another hook of the same scope
is running.

Said of the log of a run (`Scheduler.log`), the law is one of conservation: as long as a signal is
missing, the hooks that were registered are those that the scope holds, in order, and afterwards they
are those that ran together with those that the agenda is about to run. `Kept` is this invariant,
`Kept.step` carries it over every job, and `hooks_fire_once` reads off what it says of a whole run.
-/

namespace ScopedSql

/-- The hook of a scope that a job runs. -/
def Job.fires? (s : ScopeId) : Job → Option Hook
  | .hook r h => if r = s then some h else none
  | .command _ => none

/-- The hook that a job registers on a scope. -/
def Job.registers? (s : ScopeId) : Job → Option Hook
  | .command (.onEnd r h) => if r = s then some h else none
  | _ => none

namespace LogEntry

/-- A command was given. -/
def Gave (c : Command) (log : List LogEntry) : Prop := ∃ d ∈ log, d.job = .command c

/-- The hooks of a scope that ran. -/
def fired (s : ScopeId) (log : List LogEntry) : List Hook := log.filterMap fun d => d.job.fires? s

/-- The hooks that were registered on a scope. -/
def registered (s : ScopeId) (log : List LogEntry) : List Hook :=
  log.filterMap fun d => d.job.registers? s

variable {s r : ScopeId} {a b : List LogEntry} {c : Command}

@[simp] theorem not_gave_nil : ¬ Gave c [] := by simp [Gave]

@[simp] theorem gave_concat {w : Scheduler} {j : Job} :
    Gave c (a ++ [⟨w, j⟩]) ↔ Gave c a ∨ j = .command c := by
  simp [Gave, or_and_right, exists_or]

@[simp] theorem fired_nil : fired s [] = [] := rfl

@[simp] theorem registered_nil : registered s [] = [] := rfl

@[simp] theorem fired_append : fired s (a ++ b) = fired s a ++ fired s b :=
  List.filterMap_append

@[simp] theorem registered_append : registered s (a ++ b) = registered s a ++ registered s b :=
  List.filterMap_append

@[simp] theorem fired_cons {d : LogEntry} : fired s (d :: a) = (d.job.fires? s).toList ++ fired s a := by
  cases h : d.job.fires? s <;> simp [fired, h]

@[simp] theorem registered_cons {d : LogEntry} :
    registered s (d :: a) = (d.job.registers? s).toList ++ registered s a := by
  cases h : d.job.registers? s <;> simp [registered, h]

end LogEntry

namespace Scheduler

open LogEntry

variable {w u v : Scheduler} {s r : ScopeId} {j : Job} {jobs rest agenda : List Job}
  {done before after : List LogEntry} {d : LogEntry}

/-! ### One job -/

/-- **What a job does**, case by case. -/
inductive Does (w : Scheduler) : Job → Effect → Prop
  /-- There is no such scope to start. -/
  | startUnknown {r : ScopeId} : ¬ w.Known r → Does w (.command (.start r)) ⟨w, [], []⟩
  /-- A start that comes too late is refused. -/
  | startRefused {r : ScopeId} :
      w.isStarted r → Does w (.command (.start r)) ⟨w, [], [.refused r]⟩
  /-- A start sets the signal. -/
  | start {r : ScopeId} : w.Known r → ¬ w.isStarted r →
      Does w (.command (.start r))
        ⟨w.markStarted r, if w.isEnded r then w.due r else [], [.started r]⟩
  /-- An end that is not the first one does nothing. -/
  | finishAgain {r : ScopeId} : w.isEnded r → Does w (.command (.finish r)) ⟨w, [], []⟩
  /-- An end sets the signal. -/
  | finish {r : ScopeId} : ¬ w.isEnded r →
      Does w (.command (.finish r))
        ⟨w.markEnded r, if w.isStarted r then w.due r else [], [.ended r]⟩
  /-- There is no such scope to hang a hook on. -/
  | onEndUnknown {r : ScopeId} {h : Hook} :
      ¬ w.Known r → Does w (.command (.onEnd r h)) ⟨w, [], []⟩
  /-- A hook that is registered on a scope that is over comes next. -/
  | onEndOver {r : ScopeId} {h : Hook} : w.isOver r →
      Does w (.command (.onEnd r h)) ⟨w, [.hook r h], [.registered r h.label]⟩
  /-- Any other hook waits. -/
  | onEnd {r : ScopeId} {h : Hook} : w.Known r → ¬ w.isOver r →
      Does w (.command (.onEnd r h)) ⟨w.addHook r h, [], [.registered r h.label]⟩
  /-- No scope changes when one leaves the list of pending ones. -/
  | retire {r : ScopeId} {v : Scheduler} :
      w.Agree v → Does w (.command (.retire r)) ⟨v, [], []⟩
  /-- A hook is run by running its commands. -/
  | hook {r : ScopeId} {h : Hook} :
      Does w (.hook r h) ⟨w, h.body.map .command, [.fired r h.label]⟩

/-- A command for a scope that is not there does nothing. -/
theorem step_unknown {c : Command} (hk : ¬ w.Known r)
    (hc : c = .start r ∨ ∃ h, c = .onEnd r h) : w.step (.command c) = ⟨w, [], []⟩ := by
  have hx : w.scope? r = none := by
    rw [known_iff, not_exists] at hk
    exact Option.eq_none_iff_forall_ne_some.mpr hk
  obtain rfl | ⟨h, rfl⟩ := hc <;> simp [step, hx]

/-- Every job does one of these things. -/
theorem does_step (w : Scheduler) (j : Job) : Does w j (w.step j) := by
  cases j with
  | hook r h => exact .hook
  | command c =>
      cases c with
      | start r =>
          by_cases hk : w.Known r
          · by_cases hs : w.isStarted r
            · rw [step_start_refused hs]
              exact .startRefused hs
            · rw [step_start hk hs]
              exact .start hk hs
          · rw [step_unknown hk (.inl rfl)]
            exact .startUnknown hk
      | finish r =>
          by_cases he : w.isEnded r
          · rw [step_finish_again he]
            exact .finishAgain he
          · rw [step_finish he]
            exact .finish he
      | onEnd r h =>
          by_cases hk : w.Known r
          · by_cases ho : w.isOver r
            · rw [step_onEnd_over ho]
              exact .onEndOver ho
            · rw [step_onEnd hk ho]
              exact .onEnd hk ho
          · rw [step_unknown hk (.inr ⟨h, rfl⟩)]
            exact .onEndUnknown hk
      | retire r =>
          refine .retire (.of_scopes ?_)
          split <;> rfl

/-- No job takes a signal back. -/
theorem Does.evolves {e : Effect} (h : Does w j e) : w.Evolves e.scheduler := by
  cases h with
  | start hk hs => exact evolves_markStarted
  | finish he => exact evolves_markEnded
  | onEnd hk ho =>
      exact ⟨fun _ _ => kind?_addHook, fun _ h => by rwa [isStarted_addHook],
        fun _ _ h => by rwa [isEnded_addHook]⟩
  | retire ha => exact ha.evolves
  | _ => exact .refl w

/-- A scheduler evolves with every run. -/
theorem evolves_run (w : Scheduler) (jobs : List Job) : w.Evolves (w.run jobs).1 := by
  induction w, jobs using log.induct with
  | case1 w => rw [run_nil]; exact .refl w
  | case2 w j rest ih => rw [run_cons]; exact (does_step w j).evolves.trans ih

/-! ### How the observed state moves -/

/-- **How the observed state of a scope moves.** -/
inductive Moves : ScopeState → ScopeState → Prop
  /-- It stays. -/
  | stay {x : ScopeState} : Moves x x
  /-- A pending scope opens. -/
  | opens : Moves .pending .started
  /-- An open scope closes. -/
  | closes : Moves .started .ended
  /-- A pending scope is closed before it was open. -/
  | skips : Moves .pending .ended

/-- A scheduler that evolves moves the states of its scopes on. -/
theorem Evolves.moves (h : w.Evolves v) (hk : w.Known s) : Moves (w.stateOf s) (v.stateOf s) := by
  rw [stateOf_eq hk, stateOf_eq (h.known hk)]
  by_cases he : w.isEnded s
  · rw [if_pos he, if_pos (h.ended s hk he)]
    exact .stay
  by_cases hs : w.isStarted s
  · rw [if_neg he, if_pos hs, if_pos (h.started s hs)]
    split
    · exact .closes
    · exact .stay
  rw [if_neg he, if_neg hs]
  split
  · exact .skips
  split
  · exact .opens
  · exact .stay

/-- What is seen of a scope in the course of a run, before each job and at the end. -/
def states (w : Scheduler) (s : ScopeId) (jobs : List Job) : List ScopeState :=
  ((w.log jobs).map fun d => d.scheduler.stateOf s) ++ [(w.run jobs).1.stateOf s]

/-- The states of a scope in a run: the one before the first job, and those after it. -/
theorem states_cons (w : Scheduler) (s : ScopeId) (j : Job) (rest : List Job) :
    w.states s (j :: rest) =
      w.stateOf s :: (w.step j).scheduler.states s ((w.step j).jobs ++ rest) := by
  rw [states, log_cons, run_cons]
  rfl

/-- The first state of a scope in a run is the one before it. -/
theorem head?_states (w : Scheduler) (s : ScopeId) (jobs : List Job) :
    (w.states s jobs).head? = some (w.stateOf s) := by
  cases jobs with
  | nil => simp [states]
  | cons j rest => rw [states_cons]; rfl

/-- **The observed state of a scope only moves on.** -/
theorem isChain_states (hk : w.Known s) (jobs : List Job) : (w.states s jobs).IsChain Moves := by
  induction w, jobs using log.induct with
  | case1 w => simp [states]
  | case2 w j rest ih =>
      have he := (does_step w j).evolves
      rw [states_cons]
      refine List.isChain_cons.mpr ⟨fun x hx => ?_, ih (he.known hk)⟩
      rw [head?_states, Option.mem_some_iff] at hx
      rw [← hx]
      exact he.moves hk

/-! ### What one scope sees of a job -/

/-- The hooks of a scope that an agenda is about to run. -/
def waiting (s : ScopeId) (jobs : List Job) : List Hook := jobs.filterMap (Job.fires? s)

@[simp] theorem waiting_append (a b : List Job) : waiting s (a ++ b) = waiting s a ++ waiting s b :=
  List.filterMap_append

@[simp] theorem waiting_cons (j : Job) (rest : List Job) :
    waiting s (j :: rest) = (j.fires? s).toList ++ waiting s rest := by
  cases h : j.fires? s <;> simp [waiting, h]

@[simp] theorem waiting_nil : waiting s [] = [] := rfl

@[simp] theorem waiting_commands (body : List Command) : waiting s (body.map .command) = [] := by
  induction body with
  | nil => rfl
  | cons c body ih => rw [List.map_cons, waiting_cons, ih]; rfl

/-- The hooks of a scope as jobs are those of that scope, and of no other. -/
theorem waiting_due (w : Scheduler) (s r : ScopeId) :
    waiting s (w.due r) = if r = s then w.hooksOf r else [] := by
  rw [waiting, due, List.filterMap_map]
  by_cases h : r = s <;> simp [h, Function.comp_def, Job.fires?]

/-- **Hooks that the agenda is about to run do run**, in order. -/
theorem waiting_sublist_fired (w : Scheduler) (s : ScopeId) (jobs : List Job) :
    (waiting s jobs).Sublist (fired s (w.log jobs)) := by
  induction w, jobs using log.induct with
  | case1 w => simp
  | case2 w j rest ih =>
      rw [waiting_append] at ih
      rw [log_cons, fired_cons, waiting_cons]
      exact (List.Sublist.refl _).append ((List.sublist_append_right _ _).trans ih)

/-- **Nothing of a scope changes.** -/
structure Unmoved (s : ScopeId) (w v : Scheduler) : Prop where
  /-- It stays. -/
  known : w.Known s → v.Known s
  /-- The start signal is the same. -/
  started : v.isStarted s ↔ w.isStarted s
  /-- The end signal is the same. -/
  ended : v.isEnded s ↔ w.isEnded s
  /-- The hooks are the same. -/
  hooks : v.hooksOf s = w.hooksOf s

/-- A scope of which nothing changes is over after it if it was before. -/
theorem Unmoved.isOver (h : Unmoved s w v) : v.isOver s ↔ w.isOver s := by
  rw [isOver_iff, isOver_iff, h.started, h.ended]

/-- Where two schedulers agree, nothing changes of any scope. -/
theorem Agree.unmoved (h : w.Agree v) : Unmoved s w v :=
  ⟨h.known.mpr, by rw [h.started], by rw [h.ended], h.hooks s⟩

/-- Nothing changes of a scope where nothing happens. -/
theorem Unmoved.refl : Unmoved s w w := ⟨id, .rfl, .rfl, rfl⟩

/-- The start of another scope changes nothing of a scope. -/
theorem unmoved_markStarted (h : r ≠ s) : Unmoved s w (w.markStarted r) := by
  constructor <;> simp [h.symm]

/-- The end of another scope changes nothing of a scope. -/
theorem unmoved_markEnded (h : r ≠ s) : Unmoved s w (w.markEnded r) := by
  constructor <;> simp [h.symm]

/-- A hook of another scope changes nothing of a scope. -/
theorem unmoved_addHook {h : Hook} (hk : w.Known r) (hr : r ≠ s) :
    Unmoved s w (w.addHook r h) := by
  constructor <;> simp [hooksOf_addHook hk, hr.symm]

/-! ### The invariant -/

/-- **The hooks of a scope are kept** until both signals are set, and then they run, each once. -/
structure Kept (s : ScopeId) (done : List LogEntry) (w : Scheduler) (agenda : List Job) : Prop where
  /-- The scope is there. -/
  known : w.Known s
  /-- It was started by a command. -/
  started : w.isStarted s ↔ Gave (.start s) done
  /-- It was ended by a command. -/
  ended : w.isEnded s ↔ Gave (.finish s) done
  /-- Until it is over, it holds the hooks that were registered, and none has run. -/
  held : ¬ w.isOver s → w.hooksOf s = registered s done ∧ fired s done = [] ∧ waiting s agenda = []
  /-- Afterwards it holds none; those that have not run come next. -/
  given : w.isOver s →
    w.hooksOf s = [] ∧ (fired s done ++ waiting s agenda).Perm (registered s done)

/-- A new scope holds no hook. -/
theorem kept_fresh {kind : ScopeKind} {interval : Nat}
    (h : w.scope? s = some (.fresh kind interval)) (commands : List Command) :
    Kept s [] w (commands.map .command) where
  known := known_iff.mpr ⟨_, h⟩
  started := by simp [isStarted, h, Scope.fresh]
  ended := by simp [isEnded, h, Scope.fresh]
  held _ := by simp [hooksOf, h, Scope.fresh]
  given ho := by simp [isOver, isStarted, h, Scope.fresh] at ho

/-- A job that leaves the scope alone. -/
theorem Kept.pass (h : Kept s done w (j :: rest)) (hv : Unmoved s w v)
    (hs : j = .command (.start s) → w.isStarted s) (he : j = .command (.finish s) → w.isEnded s)
    (hr : j.registers? s = none) (hf : j.fires? s = none) (hj : waiting s jobs = []) :
    Kept s (done ++ [⟨w, j⟩]) v (jobs ++ rest) where
  known := hv.known h.known
  started := by
    rw [hv.started, gave_concat, h.started, iff_self_or, ← h.started]
    exact hs
  ended := by
    rw [hv.ended, gave_concat, h.ended, iff_self_or, ← h.ended]
    exact he
  held ho := by
    rw [hv.isOver] at ho
    simpa [hv.hooks, hr, hf, hj] using h.held ho
  given ho := by
    rw [hv.isOver] at ho
    simpa [hv.hooks, hr, hf, hj] using h.given ho

/-- A signal is set: if it is the second one, the hooks come next. -/
theorem Kept.mark {c : Command} (h : Kept s done w (.command c :: rest)) (hm : w.Marks v s)
    (hc : c = .start s ∨ c = .finish s) (hs : v.isStarted s ↔ w.isStarted s ∨ c = .start s)
    (he : v.isEnded s ↔ w.isEnded s ∨ c = .finish s) :
    Kept s (done ++ [⟨w, .command c⟩]) v ((if v.isOver s then w.due s else []) ++ rest) := by
  obtain ⟨hheld, hfired, hwait⟩ := h.held hm.before
  have hfree : (Job.command c).registers? s = none := by obtain rfl | rfl := hc <;> rfl
  have hnone : (Job.command c).fires? s = none := rfl
  have hrest : waiting s rest = [] := by simpa [hnone] using hwait
  refine ⟨?_, by simp [hs, h.started], by simp [he, h.ended], fun ho => ?_, fun ho => ?_⟩
  · rw [known_iff_kind?, hm.kind]
    exact known_iff_kind?.mp h.known
  · simp [hm.hooks, ho, hheld, hfired, hrest, hfree, hnone]
  · simp [hm.hooks, ho, hheld, hfired, hrest, hfree, hnone,
      waiting_due]

/-- A hook that is registered early is held. -/
theorem Kept.early {hook : Hook} (h : Kept s done w (.command (.onEnd s hook) :: rest))
    (ho : ¬ w.isOver s) :
    Kept s (done ++ [⟨w, .command (.onEnd s hook)⟩]) (w.addHook s hook) rest := by
  obtain ⟨hheld, hfired, hwait⟩ := h.held ho
  have hv : (w.addHook s hook).isOver s = w.isOver s := by simp [isOver]
  have hrest : waiting s rest = [] := by simpa [Job.fires?] using hwait
  refine ⟨by simpa using h.known, by simp [h.started], by simp [h.ended], fun _ => ?_,
    fun hn => absurd (hv ▸ hn) ho⟩
  simp [hooksOf_addHook h.known, hheld, hfired, hrest, Job.fires?, Job.registers?]

/-- A hook that is registered late comes next. -/
theorem Kept.late {hook : Hook} (h : Kept s done w (.command (.onEnd s hook) :: rest))
    (ho : w.isOver s) :
    Kept s (done ++ [⟨w, .command (.onEnd s hook)⟩]) w (.hook s hook :: rest) := by
  obtain ⟨hbare, hperm⟩ := h.given ho
  have hnext : (fired s done ++ hook :: waiting s rest).Perm (registered s done ++ [hook]) :=
    (List.perm_middle.trans (hperm.cons hook)).trans (List.perm_append_singleton hook _).symm
  refine ⟨h.known, by simp [h.started], by simp [h.ended], fun hn => absurd ho hn,
    fun _ => ⟨hbare, ?_⟩⟩
  simpa [Job.fires?, Job.registers?] using hnext

/-- A hook that comes next was waiting for nothing but its turn. -/
theorem Kept.fire {hook : Hook} (h : Kept s done w (.hook s hook :: rest)) :
    Kept s (done ++ [⟨w, .hook s hook⟩]) w (hook.body.map .command ++ rest) := by
  have ho : w.isOver s := by
    by_contra hn
    simpa [Job.fires?] using (h.held hn).2.2
  obtain ⟨hbare, hperm⟩ := h.given ho
  refine ⟨h.known, by simp [h.started], by simp [h.ended], fun hn => absurd ho hn,
    fun _ => ⟨hbare, ?_⟩⟩
  simpa [Job.fires?, Job.registers?] using hperm

/-- **The invariant is carried over every job.** -/
theorem Kept.step (h : Kept s done w (j :: rest)) :
    Kept s (done ++ [⟨w, j⟩]) (w.step j).scheduler ((w.step j).jobs ++ rest) := by
  have hd := does_step w j
  generalize w.step j = e at hd ⊢
  -- a job about another scope, or one that comes too late, passes; the others are about this scope
  cases hd with
  | @startUnknown r hk =>
      have hr : r ≠ s := by rintro rfl; exact hk h.known
      exact h.pass .refl (by simp [hr]) (by simp) rfl rfl rfl
  | startRefused hs => exact h.pass .refl (by rintro ⟨⟩; exact hs) (by simp) rfl rfl rfl
  | @start r hk hs =>
      by_cases hr : r = s
      · subst hr
        have ho : (w.markStarted r).isOver r ↔ w.isEnded r := by simp [isOver_iff, hk]
        simpa only [ho] using h.mark (marks_markStarted hk hs) (.inl rfl) (by simp [hk]) (by simp)
      · refine h.pass (unmoved_markStarted hr) (by simp [hr]) (by simp) rfl rfl ?_
        split <;> simp [waiting_due, hr]
  | finishAgain he => exact h.pass .refl (by simp) (by rintro ⟨⟩; exact he) rfl rfl rfl
  | @finish r he =>
      by_cases hr : r = s
      · subst hr
        have ho : (w.markEnded r).isOver r ↔ w.isStarted r := by simp [isOver_iff]
        simpa only [ho] using h.mark (marks_markEnded he) (.inr rfl) (by simp) (by simp)
      · refine h.pass (unmoved_markEnded hr) (by simp) (by simp [hr]) rfl rfl ?_
        split <;> simp [waiting_due, hr]
  | @onEndUnknown r hook hk =>
      have hr : r ≠ s := by rintro rfl; exact hk h.known
      exact h.pass .refl (by simp) (by simp) (if_neg hr) rfl rfl
  | @onEndOver r hook ho =>
      by_cases hr : r = s
      · subst hr
        exact h.late ho
      · refine h.pass .refl (by simp) (by simp) (if_neg hr) rfl ?_
        simp [Job.fires?, hr]
  | @onEnd r hook hk ho =>
      by_cases hr : r = s
      · subst hr
        exact h.early ho
      · exact h.pass (unmoved_addHook hk hr) (by simp) (by simp) (if_neg hr) rfl rfl
  | retire ha => exact h.pass ha.unmoved (by simp) (by simp) rfl rfl rfl
  | @hook r hook =>
      by_cases hr : r = s
      · subst hr
        exact h.fire
      · exact h.pass .refl (by simp) (by simp) rfl (if_neg hr) (waiting_commands _)

/-- The invariant asks nothing of an agenda but which hooks of the scope are on it. -/
theorem Kept.congr (h : Kept s done w jobs) (ha : waiting s jobs = waiting s agenda) :
    Kept s done w agenda := by
  refine ⟨h.known, h.started, h.ended, fun ho => ?_, fun ho => ?_⟩
  · rw [← ha]
    exact h.held ho
  · rw [← ha]
    exact h.given ho

/-- A scope becomes over by its second signal, and then its hooks come next. -/
theorem Does.second {e : Effect} (h : Does w j e) (hn : ¬ w.isOver s) (ho : e.scheduler.isOver s) :
    (j = .command (.start s) ∨ j = .command (.finish s)) ∧ e.jobs = w.due s := by
  cases h with
  | @start r hk hs =>
      obtain hov | ⟨rfl, -, he⟩ := isOver_markStarted.mp ho
      · exact absurd hov hn
      · exact ⟨.inl rfl, if_pos he⟩
  | @finish r he =>
      obtain hov | ⟨rfl, hs⟩ := isOver_markEnded.mp ho
      · exact absurd hov hn
      · exact ⟨.inr rfl, if_pos hs⟩
  | @onEnd r hook hk hr =>
      rw [isOver_iff, isStarted_addHook, isEnded_addHook, ← isOver_iff] at ho
      exact absurd ho hn
  | retire ha => exact absurd (ha.isOver ▸ ho) hn
  | _ => exact absurd ho hn

/-! ### A whole run -/

/-- **A job at its turn, as one scope sees it**: what it may do depends on the commands that were
given before, and on nothing else. -/
structure Orderly (s : ScopeId) (before : List LogEntry) (d : LogEntry) : Prop where
  /-- The scope is started once a start was given. -/
  started : d.scheduler.isStarted s ↔ Gave (.start s) before
  /-- It is ended once an end was given. -/
  ended : d.scheduler.isEnded s ↔ Gave (.finish s) before
  /-- The first start succeeds. -/
  start_first : ¬ Gave (.start s) before →
    d.scheduler.start s = .ok (d.scheduler.perform [.start s])
  /-- Any other start is refused and changes nothing. -/
  start_again : Gave (.start s) before →
    d.scheduler.start s = .error (.alreadyStarted s.number) ∧
      (d.job = .command (.start s) → d.effect = ⟨d.scheduler, [], [.refused s]⟩)
  /-- An end after the first one changes nothing. -/
  finish_again : Gave (.finish s) before → d.job = .command (.finish s) →
    d.effect = ⟨d.scheduler, [], []⟩
  /-- No hook runs as long as a signal is missing. -/
  quiet : ¬ d.scheduler.isOver s → fired s before = []
  /-- The second signal is set by a start or an end. -/
  second : ¬ d.scheduler.isOver s → d.effect.scheduler.isOver s →
    d.job = .command (.start s) ∨ d.job = .command (.finish s)
  /-- That call runs the hooks that were registered, one after the other: they run in the order of their
  registration, and no other hook runs inside the call but those that are registered meanwhile. -/
  flush : ¬ d.scheduler.isOver s → d.effect.scheduler.isOver s →
    d.within = d.effect.scheduler.log ((registered s before).map (.hook s)) ∧
      (registered s before).Sublist (fired s d.within) ∧
      (fired s d.within).Perm (registered s before ++ registered s d.within)
  /-- A hook that is registered before does not run inside its registration. -/
  early : ∀ h, d.job = .command (.onEnd s h) → ¬ d.scheduler.isOver s → d.within = []
  /-- A hook that is registered afterwards does, with all that it brings about. -/
  late : ∀ h, d.job = .command (.onEnd s h) → d.scheduler.isOver s →
    d.within = ⟨d.scheduler, .hook s h⟩ :: d.scheduler.log (h.body.map .command)

/-- **A scope that was not started is started**, with all that follows from it. -/
theorem start_of_not_isStarted (hk : w.Known s) (h : ¬ w.isStarted s) :
    w.start s = .ok (w.perform [.start s]) := by
  obtain ⟨x, hx⟩ := known_iff.mp hk
  have hs : x.started = false := by simpa [isStarted, hx] using h
  simp [start, hx, hs]

/-- **A scope is not started twice.** -/
theorem start_of_isStarted (h : w.isStarted s) :
    w.start s = .error (.alreadyStarted s.number) := by
  obtain ⟨x, hx⟩ := known_iff.mp (known_of_isStarted h)
  have hs : x.started = true := by simpa [isStarted, hx] using h
  simp [start, hx, hs]

/-- The hooks that were held run inside the call that sets the second signal. -/
theorem Kept.flush (h : Kept s before w (j :: rest)) (hn : ¬ w.isOver s)
    (ho : (w.step j).scheduler.isOver s) :
    LogEntry.within ⟨w, j⟩ = (w.step j).scheduler.log ((registered s before).map (.hook s)) ∧
      (registered s before).Sublist (fired s (LogEntry.within ⟨w, j⟩)) ∧
      (fired s (LogEntry.within ⟨w, j⟩)).Perm
        (registered s before ++ registered s (LogEntry.within ⟨w, j⟩)) := by
  obtain ⟨hheld, hfired, hwait⟩ := h.held hn
  obtain ⟨hj, hjobs⟩ := (does_step w j).second hn ho
  have hdue : (w.step j).jobs = (registered s before).map (.hook s) := by
    rw [hjobs, due, hheld]
  have hbrings : waiting s (w.step j).jobs = registered s before := by
    rw [hjobs, waiting_due, if_pos rfl, hheld]
  have hcommand : j.fires? s = none ∧ j.registers? s = none := by
    obtain rfl | rfl := hj <;> exact ⟨rfl, rfl⟩
  have hrest : waiting s rest = [] := by simpa [hcommand.1] using hwait
  -- Nothing on the rest of the agenda is about the hooks, so the call can be seen on its own.
  have hinside : Kept s (before ++ [⟨w, j⟩]) (w.step j).scheduler (w.step j).jobs :=
    h.step.congr (by rw [waiting_append, hrest, List.append_nil])
  have hend := log_induct_run (fun _ _ _ _ => Kept.step) hinside
  have hover := (evolves_run (w.step j).scheduler (w.step j).jobs).isOver ho
  refine ⟨by rw [← hdue]; rfl, ?_, ?_⟩
  · have hsub := waiting_sublist_fired (w.step j).scheduler s (w.step j).jobs
    rwa [hbrings] at hsub
  · simpa [hfired, hcommand, LogEntry.within, LogEntry.effect] using (hend.given hover).2

/-- The invariant makes the next job an orderly one. -/
theorem Kept.orderly (h : Kept s before w (j :: rest)) : Orderly s before ⟨w, j⟩ where
  started := h.started
  ended := h.ended
  start_first hg := start_of_not_isStarted h.known (mt h.started.mp hg)
  start_again hg := by
    have hs := h.started.mpr hg
    refine ⟨start_of_isStarted hs, ?_⟩
    rintro ⟨⟩
    exact step_start_refused hs
  finish_again hg := by
    rintro ⟨⟩
    exact step_finish_again (h.ended.mpr hg)
  quiet hn := (h.held hn).2.1
  second hn ho := ((does_step w j).second hn ho).1
  flush := h.flush
  early hook := by
    rintro ⟨⟩ ho
    simp [LogEntry.within, LogEntry.effect, step_onEnd h.known ho]
  late hook := by
    rintro ⟨⟩ ho
    rw [LogEntry.within, LogEntry.effect, step_onEnd_over ho, log_cons, List.append_nil]
    rfl

/-- **Hooks run exactly once.** Whatever commands are given to a scheduler, also by the hooks of the
scope while they run: a new scope is over in the end exactly if it was both started and ended; then
each of its hooks has run, as often as it was registered, and otherwise none has. Its observed state
only moves on, every job is an orderly one, and what a job brings about is done inside of it. -/
theorem hooks_fire_once {kind : ScopeKind} {interval : Nat}
    (hs : w.scope? s = some (.fresh kind interval)) (commands : List Command) :
    let log := w.log (commands.map .command)
    (w.perform commands).2 = (log.flatMap fun d => d.effect.events) ∧
    ((w.perform commands).1.isOver s ↔ Gave (.start s) log ∧ Gave (.finish s) log) ∧
    (Gave (.start s) log ∧ Gave (.finish s) log → (fired s log).Perm (registered s log)) ∧
    (¬ (Gave (.start s) log ∧ Gave (.finish s) log) → fired s log = []) ∧
    (w.states s (commands.map .command)).IsChain Moves ∧
    ∀ before d after, log = before ++ d :: after → d.within <+: after ∧ Orderly s before d := by
  intro log
  have hstart : Kept s [] w (commands.map .command) := kept_fresh hs commands
  have hend : Kept s log (w.perform commands).1 [] :=
    log_induct_run (fun _ _ _ _ => Kept.step) hstart
  have hover : (w.perform commands).1.isOver s ↔ Gave (.start s) log ∧ Gave (.finish s) log := by
    rw [isOver_iff, hend.started, hend.ended]
  refine ⟨run_events _ _, hover, fun hg => ?_, fun hg => ?_, isChain_states hstart.known _,
    fun before d after hlog => ?_⟩
  · simpa using (hend.given (hover.mpr hg)).2
  · exact (hend.held (mt hover.mp hg)).2.1
  · obtain ⟨u, agenda, hu, hd, -⟩ := log_induct (fun _ _ _ _ => Kept.step) hstart hlog
    obtain ⟨rest, rfl, rfl, rfl⟩ := log_eq_cons hd
    exact ⟨List.prefix_append _ _, hu.orderly⟩

/-- Two hooks before the second signal, of which the first registers one more while it runs, and one
after it, among starts and ends that come again. -/
def reentrantCommands (s : ScopeId) : List Command :=
  [.onEnd s (.mk 1 [.onEnd s (.mk 3 []), .start s]), .finish s, .onEnd s (.mk 2 [.finish s]),
    .start s, .onEnd s (.mk 4 []), .start s]

/-- The hook that is registered by the first hook runs inside of it, before the second one. -/
theorem hooks_fire_once_reentrant :
    let w := ((Scheduler.new 0 false).1.create .user 0).1
    let log := w.log ((reentrantCommands ⟨1⟩).map .command)
    w.scope? ⟨1⟩ = some (.fresh .user 0) ∧ (fired ⟨1⟩ log).Perm (registered ⟨1⟩ log) ∧
      (fired ⟨1⟩ log).map Hook.label = [1, 3, 2, 4] := by
  intro w log
  have hs : w.scope? ⟨1⟩ = some (.fresh .user 0) := by with_unfolding_all rfl
  have h := hooks_fire_once hs (reentrantCommands ⟨1⟩)
  have ho : (w.perform (reentrantCommands ⟨1⟩)).1.isOver ⟨1⟩ := by decide +kernel
  exact ⟨hs, h.2.2.1 (h.2.1.mp ho), by decide +kernel⟩

end Scheduler

end ScopedSql
