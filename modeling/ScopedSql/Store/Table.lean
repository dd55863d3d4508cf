import ScopedSql.Identifier
import ScopedSql.Schema.Basic
import ScopedSql.Store.Compare

/-!
# Stored tables

A stored table keeps its rows in order of their row identities. An integer primary key of one column
shows the identity; where there is none, the names that every engine keeps for it still read it.
A name in a statement therefore stands for a `Slot`: the identity or a column. Statements may spell
a name in either case; what is shown is the spelling of the definition.
-/

namespace ScopedSql

/-- **The cells of a row.** -/
abbrev Cells := NameMap Stored

/-- **A stored row**: its identity and the cells of the columns that do not show it. -/
structure StoredRow where
  /-- The identity. -/
  rowid : Int64
  /-- The cells. -/
  cells : Cells

/-- **A stored table.** -/
structure StoredTable where
  /-- Its definition, with the indexes that it has got. -/
  definition : TableDefinition
  /-- Its rows in order of identity. -/
  rows : List StoredRow

/-- **What a name stands for** in a statement about a table. -/
inductive Slot where
  /-- The row identity. -/
  | rowid
  /-- A column that does not show the identity. -/
  | column (c : ColumnDefinition)
  deriving DecidableEq

/-- The names of the row identity. A column of such a name goes first. -/
def rowidNames : List String := ["rowid", "oid", "_rowid_"]

/-- **Reading a slot** of a row: a cell that the row does not have is absent. -/
def StoredRow.read (r : StoredRow) : Slot → Stored
  | .rowid => .integer r.rowid
  | .column c => (r.cells.get? c.name).getD .null

/-- Whether two rows have the same values in the slots of a key. An absent value is the same as no
other. -/
def StoredRow.agree (key : List Slot) (a b : StoredRow) : Bool :=
  key.all fun s => (a.read s).compare? (b.read s) == some .eq

namespace StoredTable

/-- The name of a table. -/
def name (t : StoredTable) : String := t.definition.name

/-! ### Names -/

/-- Whether a column is declared to identify rows. -/
def isKey (t : StoredTable) (c : ColumnDefinition) : Bool :=
  c.constraints.contains .primaryKey ||
    match t.definition.primaryKey with
    | [name] => sameName name c.name
    | _ => false

/-- Whether a column shows the row identity. -/
def showsRowid (t : StoredTable) (c : ColumnDefinition) : Bool :=
  t.isKey c && c.dataType == .integer

/-- The slot of a column. -/
def slotOf (t : StoredTable) (c : ColumnDefinition) : Slot :=
  if t.showsRowid c then .rowid else .column c

/-- A column by its name. -/
def column? (t : StoredTable) (name : String) : Option ColumnDefinition :=
  t.definition.columns.find? fun c => sameName c.name name

/-- **The slot of a name.** -/
def slot? (t : StoredTable) (name : String) : Option Slot :=
  match t.column? name with
  | some c => some (t.slotOf c)
  | none => if rowidNames.any (sameName name) then some .rowid else none

/-- Whether a name is that of a column. -/
def hasColumn (t : StoredTable) (name : String) : Bool :=
  (t.column? name).isSome

/-- Whether a name stands for a slot. -/
def knows (t : StoredTable) (name : String) : Bool :=
  (t.slot? name).isSome

/-- **The name under which a slot is shown.** -/
def nameOf (t : StoredTable) : Slot → String
  | .rowid => ((t.definition.columns.find? t.showsRowid).map ColumnDefinition.name).getD "rowid"
  | .column c => c.name

/-- The columns that do not show the identity. -/
def plainColumns (t : StoredTable) : List ColumnDefinition :=
  t.definition.columns.filter fun c => !t.showsRowid c

/-! ### Keys -/

/-- The slots of the columns of a key. -/
def slotsOf (t : StoredTable) (names : List String) : List Slot :=
  names.filterMap t.slot?

/-- The keys that constraints declare, in order of definition: those of single columns, then the key
of the whole table. A key that is declared twice counts where it was declared first. -/
def declaredKeys (t : StoredTable) : List (List Slot) :=
  let single := t.plainColumns.filter fun c =>
    c.constraints.contains .unique || c.constraints.contains .primaryKey
  let whole := t.slotsOf t.definition.primaryKey
  let keys := single.map (fun c => [Slot.column c]) ++ [whole]
  keys.foldl (fun keys k => if k.isEmpty || k == [.rowid] || keys.contains k then keys else keys ++ [k]) []

/-- **The keys beside the row identity**, each a list of slots that together tell rows apart, in order
of creation: the declared ones, then those of unique indexes. -/
def keys (t : StoredTable) : List (List Slot) :=
  t.declaredKeys ++
    (t.definition.indexes.filter IndexDefinition.unique).map fun i => t.slotsOf i.columns

/-- The fault of two rows that agree on a key. -/
def notUnique (t : StoredTable) (key : List Slot) : EngineFault :=
  .notUnique t.name (key.map t.nameOf)

end StoredTable

end ScopedSql
