import ScopedSql.Proofs.Predicate.NormalForm

/-!
# Which filters are refused, and for what

A filter is refused exactly if one of its comparisons is, and then for the fault of the first of them.
`Comparison.Admissible` says what passes and `Comparison.Refused` what does not, and why, in terms of the
pattern of names and of the two operators that take lists. `faultOf_fragment` carries the fault of a
filter down to its comparisons; no connector and no grouping is left there.

## Main results

* `Comparison.admissible_iff`, `Comparison.refused_iff`: what compiling one comparison comes to.
* `faultOf_fragment`: a filter has the first fault among those of its comparisons.
* `Clause.refused_for_the_first`: the two put together.
-/

namespace ScopedSql

/-- The fault of a step that may fail, if it does. -/
def faultOf {α : Type} : Except Fault α → Option Fault
  | .ok _ => none
  | .error e => some e

/-- The fault of a result is the one that it failed with. -/
theorem faultOf_eq_some_iff {α : Type} {r : Except Fault α} {e : Fault} :
    faultOf r = some e ↔ r = .error e := by
  cases r <;> simp [faultOf]

/-- A result without a fault is a success. -/
theorem faultOf_eq_none_iff {α : Type} {r : Except Fault α} :
    faultOf r = none ↔ ∃ a, r = .ok a := by
  cases r <;> simp [faultOf]

/-! ### One comparison -/

/-- The operators that take a list are `IN` and `NOT IN`. -/
theorem Operator.takesList_iff (o : Operator) : o.takesList ↔ o = .isIn ∨ o = .notIn := by
  cases o <;> simp [takesList]

namespace Comparison

/-- **What passes**: the column is a plain name, and the operand is a list exactly for the two
operators that take one. -/
structure Admissible (c : Comparison) : Prop where
  /-- The column. -/
  column : IsPlainName c.column
  /-- The operand. -/
  operand : c.operand.isList ↔ c.operator = .isIn ∨ c.operator = .notIn

/-- **What is refused, and why.** The column comes first: where it is no plain name, the operand is not
looked at. -/
inductive Refused (c : Comparison) : Fault → Prop
  /-- The column is no plain name. -/
  | column (hc : ¬ IsPlainName c.column) : Refused c (.invalidIdentifier c.column)
  /-- A list operator compares with a single value. -/
  | needsList (hc : IsPlainName c.column) (ho : c.operator = .isIn ∨ c.operator = .notIn)
      (hv : ¬ c.operand.isList) : Refused c (.invalidPredicate (.needsList c.operator c.column))
  /-- Another operator compares with a list. -/
  | refusesList (hc : IsPlainName c.column) (ho : ¬ (c.operator = .isIn ∨ c.operator = .notIn))
      (hv : c.operand.isList) : Refused c (.invalidPredicate (.refusesList c.operator c.column))

/-- The fault of a comparison, if it has one. -/
def fault? (c : Comparison) : Option Fault :=
  faultOf (Predicate.compare 1 c.column c.operator c.operand)

/-- Where placeholders are counted from has no part in the fault. -/
theorem faultOf_compare (next : Nat) (column : String) (operator : Operator) (operand : Operand) :
    faultOf (Predicate.compare next column operator operand) =
      fault? ⟨column, operator, operand⟩ := by
  unfold fault? Predicate.compare
  cases checkIdentifier column with
  | error e => rfl
  | ok u => cases operator.takesList <;> cases operand <;> rfl

/-- A comparison whose column passes has the fault of its shape, if any. -/
theorem fault?_of_isPlainName {c : Comparison} (hc : IsPlainName c.column) :
    c.fault? = if c.operator.takesList = c.operand.isList then none
      else if c.operator.takesList then some (.invalidPredicate (.needsList c.operator c.column))
      else some (.invalidPredicate (.refusesList c.operator c.column)) := by
  have hcheck := checkIdentifier_eq_ok_iff.mpr (isIdentifier_iff.mpr hc)
  unfold fault? Predicate.compare
  rw [hcheck]
  cases c.operator.takesList <;> cases c.operand <;> rfl

/-- A column with a bad name is the first thing that a comparison is refused for. -/
theorem fault?_of_not_isPlainName {c : Comparison} (hc : ¬ IsPlainName c.column) :
    c.fault? = some (.invalidIdentifier c.column) := by
  have hcheck := checkIdentifier_eq_error_iff.mpr ⟨fun h => hc (isIdentifier_iff.mp h), rfl⟩
  unfold fault? Predicate.compare
  rw [hcheck]
  rfl

/-- An operator has the operand that it takes if only `IN` and `NOT IN` have lists. -/
theorem operand_iff {c : Comparison} : c.operator.takesList = c.operand.isList ↔
    (c.operand.isList ↔ c.operator = .isIn ∨ c.operator = .notIn) := by
  rw [← Operator.takesList_iff, Bool.eq_iff_iff]
  exact iff_comm

/-- **A comparison has no fault exactly if it is admissible.** -/
theorem admissible_iff {c : Comparison} : c.Admissible ↔ c.fault? = none := by
  by_cases hc : IsPlainName c.column
  · rw [fault?_of_isPlainName hc]
    split
    case isTrue hshape => exact iff_of_true ⟨hc, operand_iff.mp hshape⟩ rfl
    case isFalse hshape =>
      refine iff_of_false (fun h => hshape (operand_iff.mpr h.operand)) ?_
      split <;> nofun
  · rw [fault?_of_not_isPlainName hc]
    exact iff_of_false (fun h => hc h.column) nofun

/-- **The fault of a comparison is the one that it is refused for.** -/
theorem refused_iff {c : Comparison} {e : Fault} : c.Refused e ↔ c.fault? = some e := by
  constructor
  · intro h
    cases h with
    | column hc => exact fault?_of_not_isPlainName hc
    | needsList hc ho hv =>
        have htakes := (Operator.takesList_iff _).mpr ho
        rw [fault?_of_isPlainName hc, htakes, if_neg fun h => hv h.symm, if_pos rfl]
    | refusesList hc ho hv =>
        have htakes := mt (Operator.takesList_iff _).mp ho
        rw [fault?_of_isPlainName hc, hv, if_neg htakes, if_neg htakes]
  · intro h
    by_cases hc : IsPlainName c.column
    · rw [fault?_of_isPlainName hc] at h
      split at h
      case isTrue => cases h
      case isFalse hshape =>
        split at h
        case isTrue htakes =>
          cases h
          exact .needsList hc ((Operator.takesList_iff _).mp htakes)
            fun hv => hshape (htakes.trans hv.symm)
        case isFalse htakes =>
          cases h
          refine .refusesList hc (mt (Operator.takesList_iff _).mpr htakes) ?_
          simpa [Bool.eq_false_iff.mpr htakes] using hshape
    · rw [fault?_of_not_isPlainName hc] at h
      cases h
      exact .column hc

end Comparison

/-! ### Filters -/

namespace Predicate

mutual

/-- **A filter has the first fault among those of its comparisons.** A group adds none and hides none, and
once a part has failed the parts behind it are not looked at. -/
theorem faultOf_fragment (next : Nat) (p : Predicate) :
    faultOf (p.fragment next) = p.comparisons.findSome? Comparison.fault? := by
  cases p with
  | comparison column operator operand =>
      rw [fragment, Comparison.faultOf_compare, comparisons, List.findSome?_singleton]
  | group connector children =>
      rw [comparisons, ← faultOf_fragments next children, fragment]
      match fragments next children with
      | .error e => rfl
      | .ok ([], values) => rfl
      | .ok (part :: parts, values) => rfl

/-- **Filters are refused for the first of their comparisons that is refused.** -/
theorem faultOf_fragments (next : Nat) (ps : List Predicate) :
    faultOf (fragments next ps) = (allComparisons ps).findSome? Comparison.fault? := by
  cases ps with
  | nil => rfl
  | cons p rest =>
      rw [allComparisons, List.findSome?_append, ← faultOf_fragment next p, fragments]
      cases p.fragment next with
      | error e => rfl
      | ok f =>
          simp only [faultOf, Option.none_or, ← faultOf_fragments (next + f.values.length) rest]
          cases fragments (next + f.values.length) rest <;> rfl

end

end Predicate

namespace Clause

/-- A clause is refused for the first comparison of its filter that is refused. -/
theorem faultOf_ofPredicate (p : Predicate) :
    faultOf (ofPredicate (some p)) = p.comparisons.findSome? Comparison.fault? := by
  rw [← p.faultOf_fragment 1, ofPredicate]
  cases p.fragment 1 with
  | error e => rfl
  | ok f =>
      obtain ⟨tokens, values⟩ := f
      cases tokens <;> rfl

/-- **The first of some comparisons that is refused**, with its fault. -/
def FirstRefused (cs : List Comparison) (e : Fault) : Prop :=
  ∃ before bad after, cs = before ++ bad :: after ∧ (∀ c ∈ before, c.Admissible) ∧ bad.Refused e

/-- The first comparison that is refused is the first one with a fault. -/
theorem firstRefused_iff {cs : List Comparison} {e : Fault} :
    FirstRefused cs e ↔ cs.findSome? Comparison.fault? = some e := by
  rw [List.findSome?_eq_some_iff]
  simp only [FirstRefused, Comparison.admissible_iff, Comparison.refused_iff]
  exact exists_congr fun before => exists_congr fun bad => exists_congr fun after =>
    and_congr_right fun _ => and_comm

/-- **A filter is refused for its first bad comparison.** It is compiled exactly if all its comparisons
are admissible. Else its fault is that of the first one that is not; and any filter whose comparisons
begin in the same way up to that one, whatever follows it and however they are grouped, is refused for
the same fault. -/
theorem refused_for_the_first (p : Predicate) :
    ((∃ c, ofPredicate (some p) = .ok c) ↔ ∀ x ∈ p.comparisons, x.Admissible) ∧
      (∀ e, ofPredicate (some p) = .error e ↔ FirstRefused p.comparisons e) ∧
      ∀ (q : Predicate) before before' bad after after',
        p.comparisons = before ++ bad :: after → q.comparisons = before' ++ bad :: after' →
          (∀ x ∈ before ++ before', x.Admissible) → ¬ bad.Admissible →
            ∃ e, bad.Refused e ∧ ofPredicate (some p) = .error e ∧ ofPredicate (some q) = .error e := by
  have herror : ∀ (p : Predicate) e, ofPredicate (some p) = .error e ↔ FirstRefused p.comparisons e := by
    intro p e
    rw [firstRefused_iff, ← faultOf_ofPredicate, faultOf_eq_some_iff]
  refine ⟨?_, herror p, fun q before before' bad after after' hp hq hfine hbad => ?_⟩
  · rw [← faultOf_eq_none_iff, faultOf_ofPredicate, List.findSome?_eq_none_iff]
    simp only [Comparison.admissible_iff]
  · obtain ⟨e, he⟩ := Option.ne_none_iff_exists'.mp fun h => hbad (Comparison.admissible_iff.mpr h)
    obtain ⟨hfirst, hsecond⟩ := List.forall_mem_append.mp hfine
    have hrefused := Comparison.refused_iff.mpr he
    exact ⟨e, hrefused, (herror p e).mpr ⟨before, bad, after, hp, hfirst, hrefused⟩,
      (herror q e).mpr ⟨before', bad, after', hq, hsecond, hrefused⟩⟩

/-- Below a group of one child and behind an empty group, a column that is no name wins over the operand
that does not fit it, and over what stands to the right. Behind another connector, and with another
comparison to the right, the fault is the same. -/
theorem refused_for_the_first_nested :
    ofPredicate (some (.group .and [.group .or [], .comparison "a" .isIn (.list []),
        .group .or [.comparison "1=1 OR id" .eq (.list [])], .comparison "b" .isIn (.scalar .null)])) =
      .error (.invalidIdentifier "1=1 OR id") ∧
    ∃ e, (Comparison.mk "1=1 OR id" .eq (.list [])).Refused e ∧
      ofPredicate (some (.group .or [.comparison "1=1 OR id" .eq (.list []),
        .comparison "" .like (.scalar .null)])) = .error e := by
  obtain ⟨-, herror, hsame⟩ := refused_for_the_first (.group .and [.group .or [],
    .comparison "a" .isIn (.list []), .group .or [.comparison "1=1 OR id" .eq (.list [])],
    .comparison "b" .isIn (.scalar .null)])
  have hfine : ∀ x ∈ [Comparison.mk "a" .isIn (.list [])] ++ [], x.Admissible := by
    refine List.forall_mem_singleton.mpr ?_
    exact ⟨isIdentifier_iff.mp (by decide), by decide⟩
  have hbad : (Comparison.mk "1=1 OR id" .eq (.list [])).Refused (.invalidIdentifier "1=1 OR id") :=
    .column fun h => absurd (isIdentifier_iff.mpr h) (by decide)
  refine ⟨(herror _).mpr ⟨[⟨"a", .isIn, .list []⟩], _, [⟨"b", .isIn, .scalar .null⟩], rfl, hfine, hbad⟩,
    ?_⟩
  obtain ⟨e, he, -, hq⟩ := hsame (.group .or [.comparison "1=1 OR id" .eq (.list []),
    .comparison "" .like (.scalar .null)]) _ [] ⟨"1=1 OR id", .eq, .list []⟩ _ _ rfl rfl hfine
      fun h => absurd (isIdentifier_iff.mpr h.column) (by decide)
  exact ⟨e, he, hq⟩

end Clause

end ScopedSql
