import ScopedSql.Sql.Command
import ScopedSql.Store.Table

/-!
# Reading rows

Conditions are true, false or unknown of a row; the rows of a query are those of which its condition
is true. A name that stands for nothing reads as absent; statements with such names are refused
before they are run.
-/

namespace ScopedSql

namespace StoredTable

/-- The value of a name in a row. -/
def read (t : StoredTable) (r : StoredRow) (name : String) : Stored :=
  ((t.slot? name).map r.read).getD .null

/-! ### Conditions -/

/-- The negation of a truth value that may be unknown. -/
def negate (b : Option Bool) : Option Bool :=
  b.map not

/-- The conjunction of truth values: false if one is false, else unknown if one is unknown. -/
def allOf (bs : List (Option Bool)) : Option Bool :=
  if bs.contains (some false) then some false else if bs.contains none then none else some true

/-- The disjunction of truth values: true if one is true, else unknown if one is unknown. -/
def anyOf (bs : List (Option Bool)) : Option Bool :=
  if bs.contains (some true) then some true else if bs.contains none then none else some false

/-- Whether an order meets an operator. -/
def meets : Operator → Ordering → Bool
  | .eq, o => o == .eq
  | .notEq, o => o != .eq
  | .gt, o => o == .gt
  | .ge, o => o != .lt
  | .lt, o => o == .lt
  | .le, o => o != .gt
  | _, _ => false

mutual

/-- **The truth of a condition** for the values of names and of placeholders. -/
def holds (value bound : String → Stored) : Sql.Condition → Option Bool
  | .compare column op p => ((value column).compare? (bound p)).map (meets op)
  | .among column negated ps =>
      let found := (value column).among (ps.map bound)
      if negated then negate found else found
  | .single inner => holds value bound inner
  | .joined connector first second more =>
      let truths := holds value bound first :: holds value bound second :: holdsEach value bound more
      match connector with
      | .and => allOf truths
      | .or => anyOf truths
termination_by structural c => c

/-- The truths of several conditions. -/
def holdsEach (value bound : String → Stored) : List Sql.Condition → List (Option Bool)
  | [] => []
  | c :: rest => holds value bound c :: holdsEach value bound rest
termination_by structural cs => cs

end

/-- **The rows that meet a condition**, in order of identity. -/
def matching (t : StoredTable) (bound : String → Stored) (condition : Option Sql.Condition) :
    List StoredRow :=
  match condition with
  | none => t.rows
  | some c => t.rows.filter fun r => holds (t.read r) bound c == some true

/-! ### Queries -/

/-- The order of two rows by the terms of an order. -/
def orderRows (t : StoredTable) (terms : List OrderTerm) (a b : StoredRow) : Ordering :=
  match terms with
  | [] => .eq
  | term :: rest =>
      let o := (t.read a term.column).order (t.read b term.column)
      match if term.ascending then o else o.swap with
      | .eq => t.orderRows rest a b
      | o => o

/-- The row that a query shows of a stored row. A slot that is named twice is shown once. -/
def present (t : StoredTable) (slots : List Slot) (r : StoredRow) : Row :=
  NameMap.ofList (slots.map fun s => (t.nameOf s, .ofStored (r.read s)))

/-- What a query shows of the rows that it has found. -/
def project (t : StoredTable) (found : List StoredRow) : Sql.Projection → List Row
  | .all => found.map (t.present (t.definition.columns.map t.slotOf))
  | .columns names => found.map (t.present (t.slotsOf names))
  | .count name => [NameMap.ofList [(name, .integer (.ofNat found.length))]]

/-- **The rows that a query reads.** -/
def query (t : StoredTable) (bound : String → Stored) (q : Sql.Query) : List Row :=
  let found := t.matching bound q.condition
  let sorted := found.mergeSort fun a b => t.orderRows q.orderBy a b != .gt
  let rest := (t.project sorted q.projection).drop q.offset
  match q.limit with
  | some n => if n < 0 then rest else rest.take n.toNat
  | none => rest

end StoredTable

end ScopedSql
