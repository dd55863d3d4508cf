import ScopedSql.Json.Document
import ScopedSql.Scope.Basic
import ScopedSql.Text.Quoted

/-!
# Notices

What the library tells besides its results: parts of a filter that are ignored, scopes that stay
open, a scope that the chain finds started. A notice has a level, a message and named details.
-/

namespace ScopedSql

open Json (Document)

/-- **A notice.** -/
inductive Notice where
  /-- A list filter does not have three entries. -/
  | listLength (count : Nat)
  /-- A filter has both kinds of group. -/
  | bothGroups
  /-- Keys beside a group. -/
  | ignoredKeys (keys : List String)
  /-- A filter on more than one column. -/
  | extraColumns (count : Nat)
  /-- Keys of a condition that mean nothing. -/
  | unknownKeys (column : String) (keys : List String)
  /-- A scope is still open. -/
  | stillOpen (scope : ScopeId) (kind : ScopeKind) (seconds : Nat)
  /-- A database closes while scopes are open. -/
  | closingEarly (pending : Nat)
  /-- The chain comes to a scope that someone else has started. -/
  | startedTwice (scope : ScopeId)
  deriving DecidableEq, Repr

/-- How serious a notice is. -/
inductive NoticeLevel where
  /-- Worth a look. -/
  | warn
  /-- Something is wrong. -/
  | error
  deriving DecidableEq, Repr

namespace Notice

/-- The level of a notice. -/
def level : Notice → NoticeLevel
  | .startedTwice _ => .error
  | _ => .warn

/-- The wording of a notice. -/
def message : Notice → String
  | .listLength _ =>
      "where list should be [column, operator, value]; using the first three entries"
  | .bothGroups => "where has both AND and OR at the same level; using AND"
  | .ignoredKeys _ => "keys next to AND/OR are ignored"
  | .extraColumns _ =>
      "shorthand where covers exactly one column; only the first key is used"
  | .unknownKeys _ _ => "unknown keys in condition are ignored"
  | .stillOpen _ _ _ =>
      "scope is still open; long-lived scopes are allowed but should be ended eventually"
  | .closingEarly _ => "closing database with open scopes; waiting for them to end"
  | .startedTwice _ => "scope chain started a scope twice"

/-- The details of a notice by name. -/
def details : Notice → List (String × Document)
  | .listLength count => [("len", .ofNat count)]
  | .bothGroups => []
  | .ignoredKeys keys => [("ignored", .text (Text.quotedList keys))]
  | .extraColumns count => [("keys", .ofNat count)]
  | .unknownKeys column keys =>
      [("column", .text column), ("unknown", .text (Text.quotedList keys))]
  | .stillOpen scope kind seconds =>
      [("scope_id", .ofNat scope.number), ("kind", .text kind.display), ("open_secs", .ofNat seconds)]
  | .closingEarly pending => [("pending", .ofNat pending)]
  | .startedTwice scope => [("scope_id", .ofNat scope.number)]

end Notice

end ScopedSql
