/-!
# Scopes

A scope is a window of admission. It has two one-way signals: it is started once, and it is ended
once. Whoever waits to be let in is released by the start; whatever is to follow the scope, its
hooks, runs when both signals are set. An ended scope that was never started keeps its place until
its start comes.

Hooks are data: a hook is a label and a list of commands, which may start, end or extend any
scope, also the one that they were registered on.
-/

namespace ScopedSql

/-- **The identity of a scope**, counted from zero in order of creation. -/
structure ScopeId where
  /-- How many scopes were created before. -/
  index : Nat
  deriving DecidableEq, Repr, Inhabited

namespace ScopeId

/-- The number by which messages name a scope. -/
def number (s : ScopeId) : Nat := s.index + 1

/-- The scope of a number. -/
def ofNumber? : Nat → Option ScopeId
  | 0 => none
  | n + 1 => some ⟨n⟩

end ScopeId

/-- **What a scope is for.** -/
inductive ScopeKind where
  /-- Work that asks for no scope of its own. -/
  | community
  /-- One transaction. -/
  | user
  deriving DecidableEq, Repr

/-- The display form of a kind. -/
def ScopeKind.display : ScopeKind → String
  | .community => "Community"
  | .user => "User"

/-- **The observable life of a scope.** -/
inductive ScopeState where
  /-- Not started yet. -/
  | pending
  /-- Letting work in. -/
  | started
  /-- Closed for good. -/
  | ended
  deriving DecidableEq, Repr

/-- The display form of a state. -/
def ScopeState.display : ScopeState → String
  | .pending => "Pending"
  | .started => "Started"
  | .ended => "Ended"

mutual

/-- **What a hook can do.** -/
inductive Command where
  /-- Start a scope. -/
  | start (scope : ScopeId)
  /-- End a scope. -/
  | finish (scope : ScopeId)
  /-- Register a hook on a scope. -/
  | onEnd (scope : ScopeId) (hook : Hook)
  /-- Strike a scope from the list of pending ones. -/
  | retire (scope : ScopeId)

/-- **A hook**: commands to run after a scope, under a label that tells hooks apart. -/
inductive Hook where
  /-- A label and the commands. -/
  | mk (label : Nat) (body : List Command)

end

/-- The label of a hook. -/
def Hook.label : Hook → Nat
  | .mk label _ => label

/-- The commands of a hook. -/
def Hook.body : Hook → List Command
  | .mk _ body => body

mutual

/-- The scopes that a command is about. -/
def Command.scopes : Command → List ScopeId
  | .start s => [s]
  | .finish s => [s]
  | .onEnd s h => s :: h.scopes
  | .retire s => [s]

/-- The scopes that the commands of a hook are about. -/
def Hook.scopes : Hook → List ScopeId
  | .mk _ body => bodyScopes body

/-- The scopes that a list of commands is about. -/
def bodyScopes : List Command → List ScopeId
  | [] => []
  | c :: rest => c.scopes ++ bodyScopes rest

end

/-- **The timer of an open scope**: when it rings next and how long the scope will have been open
then, in milliseconds. -/
structure Alarm where
  /-- The time of the next ring. -/
  due : Nat
  /-- The time since the start at that ring. -/
  openFor : Nat
  deriving DecidableEq, Repr

/-- **A scope.** -/
structure Scope where
  /-- What it is for. -/
  kind : ScopeKind
  /-- Milliseconds between two rings of its alarm. -/
  interval : Nat
  /-- The start signal. -/
  started : Bool
  /-- The end signal. -/
  ended : Bool
  /-- What is to follow, in order of registration. -/
  hooks : List Hook
  /-- The alarm, while the scope is open and timers run. -/
  alarm : Option Alarm

namespace Scope

/-- A new scope. -/
def fresh (kind : ScopeKind) (interval : Nat) : Scope :=
  { kind, interval, started := false, ended := false, hooks := [], alarm := none }

/-- Both signals are set. -/
def isOver (s : Scope) : Bool := s.started && s.ended

/-- The observable state. An ended scope counts as ended even if it was never started. -/
def state (s : Scope) : ScopeState :=
  if s.ended then .ended else if s.started then .started else .pending

end Scope

end ScopedSql
