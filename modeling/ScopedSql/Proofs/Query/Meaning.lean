import ScopedSql.Proofs.Predicate.Readback
import ScopedSql.Query.Request

/-!
# What a statement asks for

The statement of a request does not show all of it: the scope, the verb and the options that others
override leave no trace, and a filter shows no more than its normal form. What is left is the meaning of
the request (`Request.meaning`). Every meaning is written as one statement (`Meaning.statement`), and a
request that is planned sends the statement of its meaning (`Request.plan_eq_ok`), all of whose names
are plain identifiers.
-/

namespace ScopedSql

open Sql (Token keywords)

/-- **What a statement asks of a table.** -/
inductive Meaning where
  /-- Rows. No columns means all of them. -/
  | select (table : String) (columns : List String) (filter : Option NormalForm)
      (orderBy : List OrderTerm) (limit offset : Option Nat)
  /-- The number of rows. -/
  | count (table : String) (filter : Option NormalForm)
  /-- A new row. -/
  | insert (table : String) (row : Row)
  /-- Changed rows. -/
  | update (table : String) (row : Row) (filter : Option NormalForm)
  /-- Removed rows. -/
  | delete (table : String) (filter : Option NormalForm)

namespace Meaning

/-- The filter. -/
def filter : Meaning → Option NormalForm
  | .select _ _ filter _ _ _ => filter
  | .count _ filter => filter
  | .insert _ _ => none
  | .update _ _ filter => filter
  | .delete _ filter => filter

/-- The comparisons of the filter. -/
def comparisons (m : Meaning) : List Comparison := NormalForm.allComparisons m.filter.toList

/-- The names outside of the filter. -/
def frameNames : Meaning → List String
  | .select table columns _ orderBy _ _ => table :: columns ++ orderBy.map OrderTerm.column
  | .count table _ => [table]
  | .insert table row => table :: row.names
  | .update table row _ => table :: row.names
  | .delete table _ => [table]

/-- **The names that are asked for**: of the table, and of columns in all parts of the statement. -/
def names (m : Meaning) : List String := m.frameNames ++ m.comparisons.map Comparison.column

/-- The columns of a query. -/
def projected : List String → List Token
  | [] => [.star]
  | columns => Sql.commaSeparated (columns.map fun c => [.word c])

/-- One term of an order. -/
def term (t : OrderTerm) : List Token :=
  [.word t.column, .word (if t.ascending then "ASC" else "DESC")]

/-- The order of rows. -/
def ordered : List OrderTerm → List Token
  | [] => []
  | terms => keywords ["ORDER", "BY"] ++ Sql.commaSeparated (terms.map term)

/-- The values of a row under the names of their placeholders. -/
def bound (placeholder : String → String) (row : Row) : Bindings :=
  NameMap.ofList (row.entries.map fun e => (placeholder e.1, e.2))

/-- **The statement of a meaning.** -/
def statement : Meaning → Statement
  | .select table columns filter orderBy limit offset =>
      ⟨[.word "SELECT"] ++ projected columns ++ [.word "FROM", .word table]
        ++ (Clause.ofNorm filter).tokens ++ ordered orderBy ++ Statement.window limit offset,
        (Clause.ofNorm filter).bindings⟩
  | .count table filter => Statement.count table (Clause.ofNorm filter)
  | .insert table row =>
      if row.isEmpty then
        ⟨keywords ["INSERT", "INTO"] ++ [.word table] ++ keywords ["DEFAULT", "VALUES"],
          NameMap.empty⟩
      else
        ⟨keywords ["INSERT", "INTO"] ++ [.word table] ++ Sql.nameList row.names ++ [.word "VALUES"]
          ++ Sql.parenthesized (Sql.commaSeparated
            (row.names.map fun c => [.placeholder (Statement.insertedColumn c)])),
          bound Statement.insertedColumn row⟩
  | .update table row filter =>
      ⟨[.word "UPDATE", .word table, .word "SET"] ++ Sql.commaSeparated
          (row.names.map fun c => [.word c, .sign "=", .placeholder (Statement.updatedColumn c)])
        ++ (Clause.ofNorm filter).tokens,
        (bound Statement.updatedColumn row).extend (Clause.ofNorm filter).bindings⟩
  | .delete table filter => Statement.delete table (Clause.ofNorm filter)

/-- **A meaning that can be sent**: all names are plain identifiers, the filter can be read back, and
an update sets some column. -/
structure Sendable (m : Meaning) : Prop where
  /-- The names outside of the filter are plain identifiers. -/
  names : ∀ name ∈ m.frameNames, isIdentifier name
  /-- The comparisons of the filter fit, and their operators are built in. -/
  filter : NormalForm.Readable m.comparisons
  /-- An update sets some column. -/
  sets : ∀ table row filter, m = .update table row filter → row.isEmpty = false

end Meaning

/-! ### Requests -/

namespace Request

/-- The filter of a request. -/
def filter : Request → Option Predicate
  | .select filter _ => filter
  | .selectOne filter _ => filter
  | .count filter _ => filter
  | .insert _ _ => none
  | .update _ filter _ => filter
  | .delete filter _ => filter

/-- **A request is built in** if all operators of its filter are. -/
def BuiltIn (r : Request) : Prop := ∀ p ∈ r.filter, p.BuiltIn

/-- What a read with some options asks for. -/
def reading (table : String) (filter : Option Predicate) (options : SelectOptions) : Meaning :=
  .select table (options.columns.getD []) (filter.bind Predicate.norm) options.orderBy options.limit
    options.offset

/-- **The meaning of a request to a table**: options of reads are merged over those of the table,
whether the list of columns is missing or empty does not matter, and a filter counts for its
normal form. -/
def meaning (t : Table) : Request → Meaning
  | .select filter options => reading t.name filter (t.defaults.merge options)
  | .selectOne filter options =>
      reading t.name filter { t.defaults.merge options with limit := some 1 }
  | .count filter _ => .count t.name (filter.bind Predicate.norm)
  | .insert row _ => .insert t.name row
  | .update row filter _ => .update t.name row (filter.bind Predicate.norm)
  | .delete filter _ => .delete t.name (filter.bind Predicate.norm)

end Request

/-- **A filter is compiled to the clause of its normal form**, also if there is none. -/
theorem Clause.ofPredicate_eq_ofNorm {filter : Option Predicate} {c : Clause}
    (h : Clause.ofPredicate filter = .ok c) (hb : ∀ p ∈ filter, p.BuiltIn) :
    NormalForm.Readable (NormalForm.allComparisons (filter.bind Predicate.norm).toList) ∧
      c = Clause.ofNorm (filter.bind Predicate.norm) := by
  cases filter with
  | none =>
      cases h
      exact ⟨nofun, rfl⟩
  | some p =>
      obtain ⟨hfits, rfl⟩ := Clause.ofPredicate_eq_ok h
      refine ⟨fun c hc => ?_, rfl⟩
      rw [Option.bind_some, p.comparisons_norm] at hc
      exact ⟨hfits c hc, hb p rfl c hc⟩

namespace Statement

variable {ts : List Token} {table : String} {s : Statement}

/-- A projection of checked names is that of its columns. -/
theorem projection_eq_ok {columns : Option (List String)} (h : projection columns = .ok ts) :
    (∀ c ∈ columns.getD [], isIdentifier c) ∧ ts = Meaning.projected (columns.getD []) := by
  unfold projection at h
  cases hc : columns.getD [] with
  | nil =>
      rw [hc] at h
      cases h
      exact ⟨nofun, rfl⟩
  | cons c cs =>
      rw [hc] at h
      obtain ⟨⟨⟩, hcheck, h⟩ := bind_eq_ok_iff.mp h
      cases h
      exact ⟨checkIdentifiers_eq_ok_iff.mp hcheck, rfl⟩

/-- An ordering of checked names is that of its terms. -/
theorem ordering_eq_ok {terms : List OrderTerm} (h : ordering terms = .ok ts) :
    (∀ c ∈ terms.map OrderTerm.column, isIdentifier c) ∧ ts = Meaning.ordered terms := by
  cases terms with
  | nil =>
      cases h
      exact ⟨nofun, rfl⟩
  | cons t terms =>
      obtain ⟨⟨⟩, hcheck, h⟩ := bind_eq_ok_iff.mp h
      cases h
      exact ⟨checkIdentifiers_eq_ok_iff.mp hcheck, rfl⟩

/-- An insertion of checked names is the statement of its meaning. -/
theorem insert_eq_ok {row : Row} (h : insert table row = .ok s) :
    (∀ c ∈ row.names, isIdentifier c) ∧ s = (Meaning.insert table row).statement := by
  obtain ⟨⟨⟩, hcheck, h⟩ := bind_eq_ok_iff.mp h
  refine ⟨checkIdentifiers_eq_ok_iff.mp hcheck, ?_⟩
  rw [Meaning.statement]
  split at h
  case isTrue hempty =>
    cases h
    rw [if_pos hempty]
  case isFalse hempty =>
    cases h
    rw [if_neg hempty]
    rfl

/-- An update of checked names, of which there is one, is the statement of its meaning. -/
theorem update_eq_ok {row : Row} {filter : Option NormalForm}
    (h : update table row (Clause.ofNorm filter) = .ok s) :
    (∀ c ∈ row.names, isIdentifier c) ∧ row.isEmpty = false ∧
      s = (Meaning.update table row filter).statement := by
  obtain ⟨⟨⟩, hcheck, h⟩ := bind_eq_ok_iff.mp h
  split at h
  · nomatch h
  case isFalse hempty =>
    cases h
    exact ⟨checkIdentifiers_eq_ok_iff.mp hcheck, Bool.eq_false_iff.mpr hempty, rfl⟩

end Statement

namespace Request

variable {t : Table} {r : Request} {a : Plan}

/-- A read is sent as its meaning is written. -/
theorem reading_eq_ok {filter : Option Predicate} {options : SelectOptions} {c : Clause}
    {s : Statement} (ht : isIdentifier t.name) (hb : ∀ p ∈ filter, p.BuiltIn)
    (hc : Clause.ofPredicate filter = .ok c) (hs : Statement.select t.name c options = .ok s) :
    (reading t.name filter options).Sendable ∧ s = (reading t.name filter options).statement := by
  obtain ⟨hread, rfl⟩ := Clause.ofPredicate_eq_ofNorm hc hb
  obtain ⟨columns, hcolumns, hs⟩ := bind_eq_ok_iff.mp hs
  obtain ⟨order, horder, hs⟩ := bind_eq_ok_iff.mp hs
  obtain ⟨hcols, rfl⟩ := Statement.projection_eq_ok hcolumns
  obtain ⟨hterms, rfl⟩ := Statement.ordering_eq_ok horder
  cases hs
  refine ⟨⟨?_, hread, nofun⟩, rfl⟩
  exact List.forall_mem_cons.mpr ⟨ht, List.forall_mem_append.mpr ⟨hcols, hterms⟩⟩

/-- **A request that is planned sends the statement of its meaning**, which can be sent. -/
theorem plan_eq_ok (ht : isIdentifier t.name) (hr : r.BuiltIn) (h : r.plan t = .ok a) :
    (r.meaning t).Sendable ∧ a.statement = (r.meaning t).statement := by
  have htable : ∀ name ∈ [t.name], isIdentifier name := List.forall_mem_singleton.mpr ht
  cases r with
  | select filter options =>
      obtain ⟨c, hc, h⟩ := bind_eq_ok_iff.mp h
      obtain ⟨s, hs, h⟩ := bind_eq_ok_iff.mp h
      cases h
      exact reading_eq_ok ht hr hc hs
  | selectOne filter options =>
      obtain ⟨c, hc, h⟩ := bind_eq_ok_iff.mp h
      obtain ⟨s, hs, h⟩ := bind_eq_ok_iff.mp h
      cases h
      exact reading_eq_ok ht hr hc hs
  | count filter scope =>
      obtain ⟨c, hc, h⟩ := bind_eq_ok_iff.mp h
      cases h
      obtain ⟨hread, rfl⟩ := Clause.ofPredicate_eq_ofNorm hc hr
      exact ⟨⟨htable, hread, nofun⟩, rfl⟩
  | insert row scope =>
      obtain ⟨s, hs, h⟩ := bind_eq_ok_iff.mp h
      cases h
      obtain ⟨hnames, rfl⟩ := Statement.insert_eq_ok hs
      exact ⟨⟨List.forall_mem_cons.mpr ⟨ht, hnames⟩, nofun, nofun⟩, rfl⟩
  | update row filter scope =>
      obtain ⟨c, hc, h⟩ := bind_eq_ok_iff.mp h
      obtain ⟨s, hs, h⟩ := bind_eq_ok_iff.mp h
      cases h
      obtain ⟨hread, rfl⟩ := Clause.ofPredicate_eq_ofNorm hc hr
      obtain ⟨hnames, hsets, rfl⟩ := Statement.update_eq_ok hs
      refine ⟨⟨List.forall_mem_cons.mpr ⟨ht, hnames⟩, hread, ?_⟩, rfl⟩
      rintro _ _ _ ⟨⟩
      exact hsets
  | delete filter scope =>
      obtain ⟨c, hc, h⟩ := bind_eq_ok_iff.mp h
      cases h
      obtain ⟨hread, rfl⟩ := Clause.ofPredicate_eq_ofNorm hc hr
      exact ⟨⟨htable, hread, nofun⟩, rfl⟩

end Request

end ScopedSql
