import ScopedSql.Schema.Basic

/-!
# Settings of a database

Where a database lives, what it is created with, and how its connection behaves.
-/

namespace ScopedSql

/-- **The settings of a database.** Times are in milliseconds. -/
structure Config where
  /-- The path of the file, or the path that stands for memory. -/
  path : String
  /-- What is created when the database opens. -/
  schema : Schema := ⟨[]⟩
  /-- Whether references are enforced. -/
  foreignKeys : Bool := true
  /-- Whether changes go through a write-ahead log. -/
  writeAheadLog : Bool := false
  /-- How long to wait for a busy file. -/
  busyTimeout : Nat := 5000
  /-- How often a scope that stays open is reported. -/
  warningInterval : Nat := 10000
  deriving DecidableEq, Repr

namespace Config

/-- The path that stands for a database in memory. -/
def memoryPath : String := ":memory:"

/-- The settings of a database in memory. -/
def memory (schema : Schema) : Config :=
  { path := memoryPath, schema }

/-- Whether the database lives in memory. -/
def isMemory (c : Config) : Bool := c.path == memoryPath

end Config

/-- **One change of settings.** -/
inductive Setting where
  /-- Enforce references or not. -/
  | foreignKeys (enabled : Bool)
  /-- Use a write-ahead log or not. -/
  | writeAheadLog (enabled : Bool)
  /-- How long to wait for a busy file. -/
  | busyTimeout (milliseconds : Nat)
  /-- How often to report a scope that stays open. -/
  | warningInterval (milliseconds : Nat)
  deriving DecidableEq, Repr

/-- Applies one change. -/
def Config.set (c : Config) : Setting → Config
  | .foreignKeys enabled => { c with foreignKeys := enabled }
  | .writeAheadLog enabled => { c with writeAheadLog := enabled }
  | .busyTimeout milliseconds => { c with busyTimeout := milliseconds }
  | .warningInterval milliseconds => { c with warningInterval := milliseconds }

end ScopedSql
