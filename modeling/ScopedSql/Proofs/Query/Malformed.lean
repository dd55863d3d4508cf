import ScopedSql.Proofs.Predicate.Refusals
import ScopedSql.Proofs.Query.Rows

/-!
# Malformed requests

A request is planned before anything is done for it, and what is wrong with it shows there. It is checked
in parts: the filter, the columns of the statement, and whether an update sets any. The first part that
is refused decides for what the request is (`faultOf_plan`). `Request.Flawed` says which requests are
malformed and `Request.Malformed` for what fault, in terms of the pattern of names and of what operators
compare with; `Request.plan_eq_error_iff` and `Request.exists_plan_iff` say that planning finds just that.
-/

namespace ScopedSql

/-- **Faults come in order**: where the second step has the same fault whatever the first one gives, it
counts if the first one has none. -/
theorem faultOf_bind {α β : Type} {r : Except Fault α} {f : α → Except Fault β} {second : Option Fault}
    (h : ∀ a, faultOf (f a) = second) : faultOf (r >>= f) = (faultOf r).or second := by
  cases r with
  | error e => rfl
  | ok a => exact h a

/-- A step that gives something has no fault. -/
theorem faultOf_bind_ok {α β : Type} {r : Except Fault α} {f : α → β} :
    faultOf (r >>= fun a => .ok (f a)) = faultOf r := by
  cases r <;> rfl

namespace Statement

variable {table : String} {clause : Clause}

/-- A projection is refused for the first bad name of a column. -/
theorem faultOf_projection (columns : Option (List String)) :
    faultOf (projection columns) = faultOf (checkIdentifiers (columns.getD [])) := by
  unfold projection
  cases columns.getD [] with
  | nil => rfl
  | cons c cs => exact faultOf_bind_ok

/-- An ordering is refused for the first bad name of a column. -/
theorem faultOf_ordering (terms : List OrderTerm) :
    faultOf (ordering terms) = faultOf (checkIdentifiers (terms.map OrderTerm.column)) := by
  cases terms with
  | nil => rfl
  | cons t ts => exact faultOf_bind_ok

/-- A read is refused for its columns, those that are read before those that it is ordered by. -/
theorem faultOf_select (options : SelectOptions) :
    faultOf (select table clause options) = faultOf (checkIdentifiers
      (options.columns.getD [] ++ options.orderBy.map OrderTerm.column)) := by
  rw [select, faultOf_bind fun _ => faultOf_bind_ok, checkIdentifiers_append,
    faultOf_bind fun _ => rfl, faultOf_projection, faultOf_ordering]

/-- An insertion is refused for the first bad name of a column. -/
theorem faultOf_insert (row : Row) :
    faultOf (insert table row) = faultOf (checkIdentifiers row.names) := by
  refine (faultOf_bind fun u => ?_).trans Option.or_none
  split <;> rfl

/-- The fault of an update that sets nothing. -/
def unset? (table : String) (row : Row) : Option Fault :=
  if row.isEmpty then some (.invalidOperation (.emptyUpdate table)) else none

/-- An update is refused for the first bad name of a column, and else if there is nothing to set. -/
theorem faultOf_update (row : Row) :
    faultOf (update table row clause) =
      (faultOf (checkIdentifiers row.names)).or (unset? table row) := by
  rw [update, faultOf_bind fun u => ?_]
  unfold unset?
  split <;> rfl

end Statement

namespace Clause

variable {filter : Option Predicate}

/-- A filter is refused for the first of its comparisons that is. -/
theorem ofPredicate_eq_error_iff {e : Fault} : ofPredicate filter = .error e ↔
    ∃ p, filter = some p ∧ FirstRefused p.comparisons e := by
  cases filter with
  | none => exact iff_of_false nofun nofun
  | some p =>
      simp only [Option.some.injEq, exists_eq_left', firstRefused_iff]
      rw [← faultOf_ofPredicate, faultOf_eq_some_iff]

/-- A filter is compiled if all its comparisons are admissible. -/
theorem faultOf_ofPredicate_eq_none_iff : faultOf (ofPredicate filter) = none ↔
    ∀ p, filter = some p → ∀ x ∈ p.comparisons, x.Admissible := by
  cases filter with
  | none => exact iff_of_true rfl nofun
  | some p =>
      simp only [Option.some.injEq, forall_eq', Comparison.admissible_iff]
      rw [faultOf_ofPredicate, List.findSome?_eq_none_iff]

end Clause

namespace Request

variable {t : Table} {r : Request} {e : Fault}

/-- **The columns that a statement writes down** outside of its filter, in order: those that are read and
those that they are ordered by, after the options are merged, or those of the row, which come in order
of name. -/
def columns (t : Table) : Request → List String
  | .select _ options => reads (t.defaults.merge options)
  | .selectOne _ options => reads (t.defaults.merge options)
  | .count _ _ => []
  | .insert row _ => row.names
  | .update row _ _ => row.names
  | .delete _ _ => []
where
  /-- The columns of a read. -/
  reads (options : SelectOptions) : List String :=
    options.columns.getD [] ++ options.orderBy.map OrderTerm.column

/-- Every comparison of the filter names a column and compares with what its operator takes. -/
def FilterFits (r : Request) : Prop := ∀ p, r.filter = some p → ∀ x ∈ p.comparisons, x.Admissible

/-- An update that sets no column. -/
def SetsNothing : Request → Prop
  | .update row _ _ => row.isEmpty
  | _ => False

/-- **What makes a request malformed**: its filter does not fit, a column is no plain name, or it is an
update that sets nothing. -/
def Flawed (t : Table) (r : Request) : Prop :=
  ¬ r.FilterFits ∨ (∃ c ∈ r.columns t, ¬ IsPlainName c) ∨ r.SetsNothing

/-- **A malformed request, and for what fault it is refused.** The filter comes first and the columns after
it; of several bad comparisons or columns the first one counts. -/
inductive Malformed (t : Table) (r : Request) : Fault → Prop
  /-- A comparison of the filter is refused. -/
  | filter {p : Predicate} {e : Fault} :
      r.filter = some p → Clause.FirstRefused p.comparisons e → Malformed t r e
  /-- A column is no plain name. -/
  | column {before after : List String} {c : String} : r.FilterFits →
      r.columns t = before ++ c :: after → (∀ n ∈ before, IsPlainName n) → ¬ IsPlainName c →
        Malformed t r (.invalidIdentifier c)
  /-- An update sets nothing. -/
  | setsNothing : r.FilterFits → r.SetsNothing →
      Malformed t r (.invalidOperation (.emptyUpdate t.name))

/-- The fault of an update that sets nothing. -/
def unset? (t : Table) : Request → Option Fault
  | .update row _ _ => Statement.unset? t.name row
  | _ => none

/-- A request has nothing to set exactly if it is an update of no columns. -/
theorem unset?_eq_some_iff : r.unset? t = some e ↔
    r.SetsNothing ∧ e = .invalidOperation (.emptyUpdate t.name) := by
  cases r with
  | update row filter scope =>
      rw [unset?, Statement.unset?, Option.ite_none_right_eq_some, Option.some.injEq, eq_comm (b := e)]
      rfl
  | _ => exact iff_of_false nofun And.left

/-- An update that sets nothing has no columns. -/
theorem columns_of_setsNothing (h : r.SetsNothing) : r.columns t = [] := by
  cases r with
  | update row filter scope =>
      rw [columns, NameMap.eq_empty_of_isEmpty h]
      rfl
  | _ => cases h

/-- **A request is refused for its filter, else for its columns, else for setting nothing.** -/
theorem faultOf_plan (t : Table) (r : Request) : faultOf (r.plan t) =
    (faultOf (Clause.ofPredicate r.filter)).or
      ((faultOf (checkIdentifiers (r.columns t))).or (r.unset? t)) := by
  cases r with
  | select filter options =>
      rw [plan, faultOf_bind fun c => faultOf_bind_ok.trans (Statement.faultOf_select _)]
      exact congrArg _ Option.or_none.symm
  | selectOne filter options =>
      rw [plan, faultOf_bind fun c => faultOf_bind_ok.trans (Statement.faultOf_select _)]
      exact congrArg _ Option.or_none.symm
  | count filter scope =>
      rw [plan, faultOf_bind_ok]
      exact Option.or_none.symm
  | insert row scope =>
      rw [plan, faultOf_bind_ok, Statement.faultOf_insert]
      exact Option.or_none.symm
  | update row filter scope =>
      rw [plan, faultOf_bind fun c => faultOf_bind_ok.trans (Statement.faultOf_update row)]
      rfl
  | delete filter scope =>
      rw [plan, faultOf_bind_ok]
      exact Option.or_none.symm

/-- **Planning refuses exactly the malformed requests**, each for its fault. -/
theorem plan_eq_error_iff : r.plan t = .error e ↔ r.Malformed t e := by
  have hfits : faultOf (Clause.ofPredicate r.filter) = none ↔ r.FilterFits :=
    Clause.faultOf_ofPredicate_eq_none_iff
  rw [← faultOf_eq_some_iff, faultOf_plan, Option.or_eq_some_iff, Option.or_eq_some_iff, hfits,
    faultOf_eq_some_iff, faultOf_eq_some_iff, Clause.ofPredicate_eq_error_iff,
    checkIdentifiers_eq_error_iff, unset?_eq_some_iff]
  simp only [isIdentifier_iff]
  constructor
  · rintro (⟨p, hp, hrefused⟩ | ⟨hfilter, ⟨before, c, after, heq, hbefore, hc, rfl⟩ | ⟨-, hsets, rfl⟩⟩)
    · exact .filter hp hrefused
    · exact .column hfilter heq hbefore hc
    · exact .setsNothing hfilter hsets
  · intro h
    cases h with
    | filter hp hrefused => exact .inl ⟨_, hp, hrefused⟩
    | column hfilter heq hbefore hc => exact .inr ⟨hfilter, .inl ⟨_, _, _, heq, hbefore, hc, rfl⟩⟩
    | setsNothing hfilter hsets =>
        exact .inr ⟨hfilter, .inr ⟨by rw [columns_of_setsNothing hsets]; rfl, hsets, rfl⟩⟩

/-- **A request is planned unless it is flawed.** -/
theorem exists_plan_iff : (∃ a, r.plan t = .ok a) ↔ ¬ r.Flawed t := by
  have hfits : faultOf (Clause.ofPredicate r.filter) = none ↔ r.FilterFits :=
    Clause.faultOf_ofPredicate_eq_none_iff
  have hunset : r.unset? t = none ↔ ¬ r.SetsNothing := by
    simp [Option.eq_none_iff_forall_ne_some, unset?_eq_some_iff]
  have hcolumns : faultOf (checkIdentifiers (r.columns t)) = none ↔
      ∀ c ∈ r.columns t, IsPlainName c := by
    simp only [← isIdentifier_iff, ← checkIdentifiers_eq_ok_iff]
    rw [faultOf_eq_none_iff]
    exact ⟨fun ⟨_, h⟩ => h, fun h => ⟨_, h⟩⟩
  rw [← faultOf_eq_none_iff, faultOf_plan, Option.or_eq_none_iff, Option.or_eq_none_iff, hfits,
    hcolumns, hunset]
  simp [Flawed]

/-- **A flawed request is refused for one fault.** -/
theorem Flawed.exists_unique (h : r.Flawed t) : ∃! e, r.Malformed t e := by
  cases hp : r.plan t with
  | ok a => exact absurd h (exists_plan_iff.mp ⟨a, hp⟩)
  | error e =>
      refine ⟨e, plan_eq_error_iff.mp hp, fun e' he' => ?_⟩
      exact (Except.error.inj (hp.symm.trans (plan_eq_error_iff.mpr he'))).symm

end Request

end ScopedSql
