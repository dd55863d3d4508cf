import ScopedSql.Scope.Scheduler

/-!
# Time and alarms

A scope that stays open is reported again and again: its alarm rings one interval after the start
and then at every further interval, until the scope ends or no one holds it any more. Time moves
from one ring to the next, so a long advance rings as often as many short ones. An interval of zero
has no next ring, and its alarm is silent.
-/

namespace ScopedSql

/-- **Rings an alarm** up to a time: the alarm after it, and the rings with their times and the
milliseconds that the scope was open. -/
def Alarm.ringUntil (interval limit : Nat) (a : Alarm) : Alarm × List (Nat × Nat) :=
  if _h : 0 < interval ∧ a.due ≤ limit then
    let after := ringUntil interval limit ⟨a.due + interval, a.openFor + interval⟩
    (after.1, (a.due, a.openFor) :: after.2)
  else (a, [])
termination_by limit + 1 - a.due

/-- The scope after its alarm rang up to a time, and the rings. -/
def Scope.ringUntil (limit : Nat) (x : Scope) : Scope × List (Nat × Nat) :=
  match x.alarm with
  | none => (x, [])
  | some a =>
      let after := a.ringUntil x.interval limit
      ({ x with alarm := some after.1 }, after.2)

namespace Scheduler

/-- **Moves the time** on by so many milliseconds. Rings come scope by scope. -/
def advance (w : Scheduler) (ms : Nat) : Scheduler × List ScopeEvent :=
  let limit := w.clock + ms
  let rings := w.scopes.zipIdx.flatMap fun (x, i) =>
    (x.ringUntil limit).2.map fun (time, openFor) => ScopeEvent.rang ⟨i⟩ time (openFor / 1000)
  ({ w with clock := limit, scopes := w.scopes.map fun x => (x.ringUntil limit).1 }, rings)

/-- **Lets go of a scope**: without a holder it is no longer reported. -/
def abandon (w : Scheduler) (s : ScopeId) : Scheduler :=
  w.modify s fun x => { x with alarm := none }

end Scheduler

end ScopedSql
