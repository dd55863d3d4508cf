import ScopedSql.Store.Table

/-!
# Changing rows

Rows are checked before they are stored: the row identity has to be an integer, then columns that
must have a value are looked at in order of definition, then the row identity against those of other
rows, then the other keys, the one created last before the others.

A row that is inserted without an identity gets the greatest one plus one.
-/

namespace ScopedSql

/-- **Values that are given to slots**, in the order of a statement. -/
abbrev Given := List (Slot × Stored)

namespace StoredTable

/-- The moment at which everything happens: a store has no clock. -/
def moment : String := "2026-01-01 00:00:00"

/-- **A value as it is stored** in a column: columns of doubles keep integers as doubles and have one
zero, columns of integers keep doubles as integers where these are the same. -/
def fit : DataType → Stored → Stored
  | .real, .integer n => .real (.ofInt n.toInt)
  | .real, .real x => .real (if x.isZero then .ofInt 0 else x)
  | .integer, .real x =>
      match x.whole? with
      | some n =>
          if Int64.minValue.toInt < n ∧ n ≤ Int64.maxValue.toInt then .integer (.ofInt n)
          else .real x
      | none => .real x
  | _, v => v

/-- The default of a column. -/
def defaultOf (c : ColumnDefinition) : Stored :=
  match c.default? with
  | some (.integer n) => .integer n
  | some (.real x) => .real x
  | some (.text s) => (Value.text s).toStored
  | some .currentTimestamp => (Value.text moment).toStored
  | some .null => .null
  | none => .null

/-- An integer as a row identity. -/
def identity? (v : Stored) : Except EngineFault Int64 :=
  match fit .integer v with
  | .integer n => .ok n
  | _ => .error .badIdentity

/-- The identity that comes after all others. -/
def nextRowid (t : StoredTable) : Int64 :=
  match t.rows.getLast? with
  | none => 1
  | some r => r.rowid + 1

/-- **Checks a row** against the other rows of the table. -/
def check (t : StoredTable) (others : List StoredRow) (r : StoredRow) : Except EngineFault Unit :=
  let required := t.plainColumns.filter fun c => c.constraints.contains .notNull
  match required.find? fun c => r.read (.column c) == .null with
  | some c => .error (.notNull t.name c.name)
  | none =>
      match ([.rowid] :: t.keys.reverse).find? fun key => others.any (r.agree key) with
      | some key => .error (t.notUnique key)
      | none => .ok ()

/-- Puts a row into its place among rows in order of identity. -/
def place (r : StoredRow) : List StoredRow → List StoredRow
  | [] => [r]
  | o :: rest => if o.rowid.toInt < r.rowid.toInt then o :: place r rest else r :: o :: rest

/-- **Inserts a row.** Of two values for one column the first counts, of two for the identity the last;
an absent identity is none. -/
def insert (t : StoredTable) (given : Given) : Except EngineFault (StoredTable × Int64) := do
  let rowid ← match (given.reverse.lookup .rowid).getD .null with
    | .null => .ok t.nextRowid
    | v => identity? v
  let cells := NameMap.ofList <| t.plainColumns.map fun c =>
    (c.name, fit c.dataType ((given.lookup (.column c)).getD (defaultOf c)))
  let r : StoredRow := ⟨rowid, cells⟩
  t.check t.rows r
  .ok ({ t with rows := place r t.rows }, rowid)

/-- **A row after its slots have changed.** Of two values for one slot the last counts. An identity
can only change to another one. -/
def changed (given : Given) (r : StoredRow) : Except EngineFault StoredRow := do
  let rowid ← match given.reverse.lookup .rowid with
    | none => .ok r.rowid
    | some v => identity? v
  let cells := given.foldl (fun cells (s, v) =>
    match s with
    | .rowid => cells
    | .column c => cells.insert c.name (fit c.dataType v)) r.cells
  .ok ⟨rowid, cells⟩

/-- **Changes rows** one after the other, each checked against the table as it is then. -/
def update (t : StoredTable) (given : Given) : List StoredRow → Except EngineFault StoredTable
  | [] => .ok t
  | r :: rest => do
      let others := t.rows.filter fun o => o.rowid != r.rowid
      let r' ← changed given r
      t.check others r'
      update { t with rows := place r' others } given rest

/-- **Removes rows.** -/
def delete (t : StoredTable) (rows : List StoredRow) : StoredTable :=
  { t with rows := t.rows.filter fun r => !rows.any fun o => o.rowid == r.rowid }

/-- Whether two rows agree on a key. -/
def hasTwins (key : List Slot) : List StoredRow → Bool
  | [] => false
  | r :: rest => rest.any (r.agree key) || hasTwins key rest

/-- **Gives a table an index.** A unique index has to tell the rows apart that are there. -/
def addIndex (t : StoredTable) (index : IndexDefinition) : Except EngineFault StoredTable :=
  let key := t.slotsOf index.columns
  if index.unique && hasTwins key t.rows then .error (t.notUnique key)
  else
    let definition := { t.definition with indexes := t.definition.indexes ++ [index] }
    .ok { t with definition }

end StoredTable

end ScopedSql
