import ScopedSql.Query.Request

/-!
# Tasks

An operation on a database runs as a task. Every gated operation takes the same way: it waits for
the initializers that were registered when it began, then for its scope, and only then does its
work. `Stage` says where on that way a task stands; a task that cannot go on waits in its stage.
-/

namespace ScopedSql

/-- The number of a task. -/
abbrev TaskId := Nat

/-- **The statements of transactions.** -/
inductive TransactionVerb where
  /-- Opens a transaction. -/
  | begin
  /-- Keeps its changes. -/
  | commit
  /-- Drops its changes. -/
  | rollback
  deriving DecidableEq, Repr

/-- The SQL text of a transaction statement. -/
def TransactionVerb.sql : TransactionVerb → String
  | .begin => "BEGIN"
  | .commit => "COMMIT"
  | .rollback => "ROLLBACK"

/-- The transaction statements in the order in which they are prepared. -/
def TransactionVerb.all : List TransactionVerb := [.begin, .commit, .rollback]

/-- **An operation** that a client may issue. -/
inductive Operation where
  /-- Waits until a scope starts. -/
  | waitStarted (scope : ScopeId)
  /-- Waits until a scope is over. -/
  | waitEnded (scope : ScopeId)
  /-- Waits until a scope, or the current community scope, starts. -/
  | waitScopeStart (scope : Option ScopeId)
  /-- Closes the scheduler and waits for its scopes. -/
  | closeScheduler
  /-- Closes the database. -/
  | close
  /-- Waits for the initializers. -/
  | ready
  /-- Runs a statement. -/
  | query (verb : Verb) (sql : String) (bindings : Bindings) (scope : Option ScopeId)
  /-- Prepares a statement. -/
  | prepare (sql : String) (scope : Option ScopeId)
  /-- Runs a prepared statement, whatever the scope. -/
  | execute (verb : Verb) (sql : String) (bindings : Bindings)
  /-- Runs a transaction statement. -/
  | transact (verb : TransactionVerb) (scope : Option ScopeId)
  /-- Sends a request to a table. -/
  | request (table : Table) (request : Request)

/-- **What a task does once its scope lets it in.** -/
inductive Work where
  /-- Nothing more. -/
  | arrive
  /-- Names the scope. -/
  | announce
  /-- Makes one call. -/
  | query (verb : Verb) (sql : String) (bindings : Bindings) (counting : Bool)
  /-- Prepares a statement. -/
  | prepare (sql : String)
  /-- Runs a transaction statement, which is prepared first if need be. -/
  | transact (verb : TransactionVerb)

/-- **What a reply is for.** -/
inductive Purpose where
  /-- It is the answer to the operation. -/
  | answer (verb : Verb) (counting : Bool)
  /-- It prepared the statement asked for. -/
  | handle (sql : String)
  /-- It prepared one transaction statement for a task; the others are still to be prepared. -/
  | part (verb : TransactionVerb) (rest : List TransactionVerb)
  /-- It ran a transaction statement. -/
  | transacted

/-- **Where a task stands.** -/
inductive Stage where
  /-- Nothing has happened yet. -/
  | fresh
  /-- Waiting for the initializers from `next` up to `limit`, and then for a scope if there is work
  to do. -/
  | initializing (goal : Option (Work × Option ScopeId)) (next limit : Nat)
  /-- Waiting for the start of a scope. -/
  | awaitingStart (work : Work) (scope : ScopeId)
  /-- Waiting until a scope is over. -/
  | awaitingEnd (scope : ScopeId)
  /-- Waiting until all outstanding scopes are over. -/
  | draining (scopes : List ScopeId)
  /-- Waiting for the transaction statements. -/
  | queued (verb : TransactionVerb)
  /-- Preparing the transaction statements, these of which are left. -/
  | preparing (verb : TransactionVerb) (rest : List TransactionVerb)
  /-- Waiting for a reply. -/
  | replying (reply : Reply) (purpose : Purpose)
  /-- Over. -/
  | finished (result : Except Fault Outcome)

/-- **A task**: its operation, the replies that the engine has for it, and its stage. -/
structure Task where
  /-- The operation. -/
  operation : Operation
  /-- The replies to its engine calls, in order; a missing reply is a plain success. -/
  replies : List Reply
  /-- Where it stands. -/
  stage : Stage

/-- The result of a task that is over. -/
def Task.result? (t : Task) : Option (Except Fault Outcome) :=
  match t.stage with
  | .finished r => some r
  | _ => none

/-- The scopes that an operation holds on to while it runs. -/
def Operation.scopes : Operation → List ScopeId
  | .waitStarted s => [s]
  | .waitEnded s => [s]
  | .waitScopeStart s => s.toList
  | .query _ _ _ s => s.toList
  | .prepare _ s => s.toList
  | .transact _ s => s.toList
  | .request t r => t.defaults.scope.toList ++ r.scope.toList
  | _ => []

/-- Whether an operation holds on to the database while it runs. To wait for a scope that is at hand
takes only that scope, and a prepared statement has all that it needs. -/
def Operation.holdsDatabase : Operation → Bool
  | .waitStarted _ => false
  | .waitEnded _ => false
  | .execute _ _ _ => false
  | _ => true

end ScopedSql
