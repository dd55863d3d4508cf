import ScopedSql.Fault
import ScopedSql.Scope.Basic

/-!
# The scheduler

The scheduler hands out scopes in a strict chain: community, user, community, user, … Work without
a scope of its own joins the community scope that is current when it arrives. A request for a user
scope supersedes that community scope and ends it; the user scope starts once the superseded one
is over, and the next community scope starts once the user scope is over.

The chain itself is not stored. It exists as hooks on the scopes, which `run` works off as an agenda:
each job is one command or one hook, and the jobs that it gives rise to come before the rest. A
hook is taken off its scope before it runs, so every step uses something up (`step_weight_lt`) and
the agenda comes to an end.

Each operation returns the events that it caused, in order.
-/

namespace ScopedSql

/-- **What happens to scopes.** -/
inductive ScopeEvent where
  /-- A user scope and the community scope after it were put at the end of the chain. -/
  | linked (user community : ScopeId)
  /-- A hook was registered on a scope. -/
  | registered (scope : ScopeId) (label : Nat)
  /-- A scope was started. -/
  | started (scope : ScopeId)
  /-- A scope was ended. -/
  | ended (scope : ScopeId)
  /-- A hook tried to start a scope that was started before. -/
  | refused (scope : ScopeId)
  /-- A hook of a scope began to run. -/
  | fired (scope : ScopeId) (label : Nat)
  /-- The alarm of a scope rang, at a time and after so many seconds open. -/
  | rang (scope : ScopeId) (time seconds : Nat)
  deriving DecidableEq, Repr

/-- **The scheduler** with all scopes. Times are in milliseconds. -/
structure Scheduler where
  /-- All scopes, by identity. -/
  scopes : List Scope
  /-- The community scope that work without a scope joins. -/
  community : ScopeId
  /-- The user scopes that are not over, in order of creation. -/
  pending : List ScopeId
  /-- Whether no more scopes are handed out. -/
  closed : Bool
  /-- Whether anyone still holds the scheduler itself. -/
  owned : Bool
  /-- The alarm interval of the scopes of the chain. -/
  interval : Nat
  /-- The time. -/
  clock : Nat
  /-- Whether started scopes get an alarm. -/
  timed : Bool

/-- **One entry of an agenda.** -/
inductive Job where
  /-- A command. -/
  | command (c : Command)
  /-- A hook that was taken off a scope. -/
  | hook (scope : ScopeId) (h : Hook)

/-! ### What is left to do -/

/-- What the elements of a list weigh together. -/
def total {α : Type} (weight : α → Nat) : List α → Nat
  | [] => 0
  | x :: rest => weight x + total weight rest

@[simp] theorem total_append {α : Type} (f : α → Nat) (xs ys : List α) :
    total f (xs ++ ys) = total f xs + total f ys := by
  induction xs with
  | nil => simp [total]
  | cons x rest ih => simp [total, ih, Nat.add_assoc]

mutual

/-- How many steps a command can take, with those of the hook that it registers. -/
def Command.weight : Command → Nat
  | .onEnd _ h => 1 + h.weight
  | .start _ => 1
  | .finish _ => 1
  | .retire _ => 1

/-- How many steps a hook can take. -/
def Hook.weight : Hook → Nat
  | .mk _ body => 2 + bodyWeight body

/-- How many steps a list of commands can take. -/
def bodyWeight : List Command → Nat
  | [] => 0
  | c :: rest => c.weight + bodyWeight rest

end

/-- How many steps a job can take. -/
def Job.weight : Job → Nat
  | .command c => c.weight
  | .hook _ h => h.weight

/-- How many steps an agenda can take. -/
def agendaWeight (jobs : List Job) : Nat :=
  total Job.weight jobs

/-- How many steps the hooks of a scope can take. -/
def Scope.weight (s : Scope) : Nat :=
  total Hook.weight s.hooks

/-- **The result of one step**: the scheduler after it, the jobs that it gives rise to, and what
happened. -/
structure Effect where
  /-- The scheduler after the step. -/
  scheduler : Scheduler
  /-- What is to be done next, before the rest of the agenda. -/
  jobs : List Job
  /-- What happened. -/
  events : List ScopeEvent

namespace Scheduler

/-- How many steps all registered hooks can take. -/
def weight (w : Scheduler) : Nat :=
  total Scope.weight w.scopes

/-- A scope by its identity. -/
def scope? (w : Scheduler) (s : ScopeId) : Option Scope :=
  w.scopes[s.index]?

/-- Changes one scope. -/
def modify (w : Scheduler) (s : ScopeId) (f : Scope → Scope) : Scheduler :=
  { w with scopes := w.scopes.modify s.index f }

/-- Creates a scope that is pending. -/
def create (w : Scheduler) (kind : ScopeKind) (interval : Nat) : Scheduler × ScopeId :=
  ({ w with scopes := w.scopes ++ [Scope.fresh kind interval] }, ⟨w.scopes.length⟩)

/-! ### One step -/

/-- The alarm of a scope that opens now. -/
def alarmFor (w : Scheduler) (x : Scope) : Option Alarm :=
  if w.timed then some ⟨w.clock + x.interval, x.interval⟩ else none

/-- **Starting a scope.** It fails if the scope was started before. A scope that was ended while
pending is over now: its hooks are due, and it gets no alarm. -/
def startStep (w : Scheduler) (s : ScopeId) (x : Scope) : Effect :=
  if x.started then ⟨w, [], [.refused s]⟩
  else if x.ended then
    ⟨w.modify s fun x => { x with started := true, hooks := [] }, x.hooks.map (.hook s),
      [.started s]⟩
  else ⟨w.modify s fun x => { x with started := true, alarm := w.alarmFor x }, [], [.started s]⟩

/-- **Ending a scope.** It happens once. If the scope was started it is over now and its hooks are
due. -/
def finishStep (w : Scheduler) (s : ScopeId) (x : Scope) : Effect :=
  if x.ended then ⟨w, [], []⟩
  else if x.started then
    ⟨w.modify s fun x => { x with ended := true, alarm := none, hooks := [] },
      x.hooks.map (.hook s), [.ended s]⟩
  else ⟨w.modify s fun x => { x with ended := true, alarm := none }, [], [.ended s]⟩

/-- **Registering a hook.** It is due at once if the scope is over. -/
def onEndStep (w : Scheduler) (s : ScopeId) (h : Hook) (x : Scope) : Effect :=
  if x.isOver then ⟨w, [.hook s h], [.registered s h.label]⟩
  else ⟨w.modify s fun x => { x with hooks := x.hooks ++ [h] }, [], [.registered s h.label]⟩

/-- **One job.** Commands on unknown scopes do nothing. -/
def step (w : Scheduler) : Job → Effect
  | .command (.start s) =>
      match w.scope? s with
      | none => ⟨w, [], []⟩
      | some x => w.startStep s x
  | .command (.finish s) =>
      match w.scope? s with
      | none => ⟨w, [], []⟩
      | some x => w.finishStep s x
  | .command (.onEnd s h) =>
      match w.scope? s with
      | none => ⟨w, [], []⟩
      | some x => w.onEndStep s h x
  | .command (.retire s) =>
      ⟨if w.owned then { w with pending := w.pending.filter (· ≠ s) } else w, [], []⟩
  | .hook s h => ⟨w, h.body.map .command, [.fired s h.label]⟩

/-! ### Working off an agenda -/

/-- The weight of an agenda adds up over its parts. -/
theorem agendaWeight_append (xs ys : List Job) :
    agendaWeight (xs ++ ys) = agendaWeight xs + agendaWeight ys := by
  simp [agendaWeight]

/-- Hooks that were taken off a scope weigh what they weighed on it. -/
theorem agendaWeight_hooks (s : ScopeId) (hooks : List Hook) :
    agendaWeight (hooks.map (.hook s)) = total Hook.weight hooks := by
  induction hooks with
  | nil => rfl
  | cons h rest ih => simpa [agendaWeight, total, Job.weight] using ih

/-- Commands on an agenda weigh what they weigh in a hook. -/
theorem agendaWeight_commands (body : List Command) :
    agendaWeight (body.map .command) = bodyWeight body := by
  induction body with
  | nil => rfl
  | cons c rest ih =>
      simp only [agendaWeight, List.map_cons, total, Job.weight, bodyWeight] at ih ⊢
      omega

/-- Changing one scope changes the weight by what that scope gains or loses. -/
theorem weight_modify {w : Scheduler} {s : ScopeId} {x : Scope} (h : w.scope? s = some x)
    (f : Scope → Scope) :
    (w.modify s f).weight + x.weight = w.weight + (f x).weight := by
  have key : ∀ (xs : List Scope) (i : Nat), xs[i]? = some x →
      total Scope.weight (xs.modify i f) + x.weight =
        total Scope.weight xs + (f x).weight := by
    intro xs
    induction xs with
    | nil => intro i hi; simp at hi
    | cons y ys ih =>
        intro i hi
        cases i with
        | zero =>
            obtain rfl : y = x := by simpa using hi
            simp [List.modify, total]
            omega
        | succ i =>
            have := ih i (by simpa using hi)
            simp [total]
            omega
  exact key w.scopes s.index h

/-- The weight is that of the scopes alone. -/
theorem weight_of_scopes {w v : Scheduler} (h : v.scopes = w.scopes) : v.weight = w.weight := by
  simp [weight, h]

/-- **Every step uses something up**: what is left after a job is less than what it was before. -/
theorem step_weight_lt (w : Scheduler) (j : Job) :
    (w.step j).scheduler.weight + agendaWeight (w.step j).jobs < w.weight + j.weight := by
  cases j with
  | hook s h =>
      cases h with
      | mk label body =>
          simp only [step, Hook.body, agendaWeight_commands, Job.weight, Hook.weight]
          omega
  | command c =>
      cases c with
      | start s =>
          simp only [step]
          split
          · simp [agendaWeight, total, Job.weight, Command.weight]
          · rename_i x hx
            unfold startStep
            split
            · simp [agendaWeight, total, Job.weight, Command.weight]
            · split
              · have := weight_modify hx fun x => { x with started := true, hooks := [] }
                simp only [agendaWeight_hooks, Job.weight, Command.weight, Scope.weight,
                  total] at this ⊢
                omega
              · have := weight_modify hx fun x =>
                  { x with started := true, alarm := w.alarmFor x }
                simp only [Job.weight, Command.weight, Scope.weight, agendaWeight, total] at this ⊢
                omega
      | finish s =>
          simp only [step]
          split
          · simp [agendaWeight, total, Job.weight, Command.weight]
          · rename_i x hx
            unfold finishStep
            split
            · simp [agendaWeight, total, Job.weight, Command.weight]
            · split
              · have := weight_modify hx fun x => { x with ended := true, alarm := none, hooks := [] }
                simp only [agendaWeight_hooks, Job.weight, Command.weight, Scope.weight,
                  total] at this ⊢
                omega
              · have := weight_modify hx fun x => { x with ended := true, alarm := none }
                simp only [Job.weight, Command.weight, Scope.weight, agendaWeight, total] at this ⊢
                omega
      | onEnd s h =>
          simp only [step]
          split
          · simp only [agendaWeight, Job.weight, Command.weight, total]
            omega
          · rename_i x hx
            unfold onEndStep
            split
            · simp only [agendaWeight, Job.weight, Command.weight, total]
              omega
            · have := weight_modify hx fun x => { x with hooks := x.hooks ++ [h] }
              simp only [Job.weight, Command.weight, Scope.weight, agendaWeight, total, total_append]
                at this ⊢
              omega
      | retire s =>
          have : (if w.owned then { w with pending := w.pending.filter (· ≠ s) } else w).weight =
              w.weight := weight_of_scopes (by split <;> rfl)
          simp only [step, this, agendaWeight, Job.weight, Command.weight, total]
          omega

/-- **Works off an agenda.** Jobs that a step gives rise to come first. -/
def run (w : Scheduler) : List Job → Scheduler × List ScopeEvent
  | [] => (w, [])
  | j :: rest =>
      let e := w.step j
      let after := run e.scheduler (e.jobs ++ rest)
      (after.1, e.events ++ after.2)
termination_by jobs => w.weight + agendaWeight jobs
decreasing_by
  have h := step_weight_lt w j
  have hcons : agendaWeight (j :: rest) = j.weight + agendaWeight rest := rfl
  rw [agendaWeight_append, hcons]
  omega

/-- Works off a list of commands. -/
def perform (w : Scheduler) (commands : List Command) : Scheduler × List ScopeEvent :=
  w.run (commands.map .command)

/-! ### Operations -/

/-- **A new scheduler.** Its first community scope is started. -/
def new (interval : Nat) (timed : Bool) : Scheduler × List ScopeEvent :=
  let w : Scheduler :=
    { scopes := [Scope.fresh .community interval], community := ⟨0⟩, pending := [],
      closed := false, owned := true, interval, clock := 0, timed }
  w.perform [.start ⟨0⟩]

/-- **Starts a scope** for a client. -/
def start (w : Scheduler) (s : ScopeId) : Except Fault (Scheduler × List ScopeEvent) :=
  match w.scope? s with
  | none => .ok (w, [])
  | some x =>
      if x.started then .error (.alreadyStarted s.number) else .ok (w.perform [.start s])

/-- **Ends a scope** for a client. -/
def finish (w : Scheduler) (s : ScopeId) : Scheduler × List ScopeEvent :=
  w.perform [.finish s]

/-- What follows a user scope: its community scope starts and it is no longer pending. -/
def userHook (user next : ScopeId) : Hook :=
  .mk next.number [.start next, .retire user]

/-- What follows a superseded community scope: the user scope starts. -/
def communityHook (user : ScopeId) : Hook :=
  .mk user.number [.start user]

/-- **Requests a user scope.** The user scope and the community scope after it are created even
when the scheduler is closed, and lost then. -/
def newScope (w : Scheduler) : Scheduler × Except Fault ScopeId × List ScopeEvent :=
  let (w, user) := w.create .user w.interval
  let (w, next) := w.create .community w.interval
  if w.closed then (w, .error .schedulerClosed, [])
  else
    let superseded := w.community
    let w := { w with pending := w.pending ++ [user], community := next }
    let (w, events) := w.perform
      [.onEnd user (userHook user next), .onEnd superseded (communityHook user),
       .finish superseded]
    (w, .ok user, .linked user next :: events)

/-- **Begins to close**: no more scopes are handed out and the community scope ends. Returned are
the scopes to wait for. -/
def beginClose (w : Scheduler) : Scheduler × List ScopeId × List ScopeEvent :=
  let (w', events) := { w with closed := true }.finish w.community
  (w', w.pending ++ [w.community], events)

/-- Whether all scopes of a list are over. -/
def allOver (w : Scheduler) (scopes : List ScopeId) : Bool :=
  scopes.all fun s => ((w.scope? s).map Scope.isOver).getD true

/-- **Ends closing**: nothing is pending any more. -/
def endClose (w : Scheduler) : Scheduler :=
  { w with pending := [] }

/-- Whether a scope was ended, started or not. -/
def isEnded (w : Scheduler) (s : ScopeId) : Bool :=
  ((w.scope? s).map Scope.ended).getD true

/-- Whether a scope was started. -/
def isStarted (w : Scheduler) (s : ScopeId) : Bool :=
  ((w.scope? s).map Scope.started).getD false

/-- **The number of pending scopes** that were not ended. A scope that was ended before its turn
keeps its place in the chain but no longer counts. -/
def pendingCount (w : Scheduler) : Nat :=
  (w.pending.filter fun s => !w.isEnded s).length

/-- The scheduler after its last handle is gone: scopes stay, but no one keeps the list of pending
ones. -/
def disown (w : Scheduler) : Scheduler :=
  { w with owned := false }

end Scheduler

end ScopedSql
