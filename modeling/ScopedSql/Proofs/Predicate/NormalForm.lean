import ScopedSql.Predicate.Clause

/-!
# Normal forms of filters

A clause does not show all of a filter: groups that contain no comparison leave no trace, and a group
that is left with one child has no place for its connector. The normal form (`Predicate.norm`) keeps
what is left, and `fragment_eq_ok` says that a filter is compiled as its normal form is written
(`NormalForm.tokens`), with the values of its comparisons in order.
-/

namespace ScopedSql

open Sql (Token parenthesized separated commaSeparated)

/-- **A comparison.** -/
structure Comparison where
  /-- What is compared. -/
  column : String
  /-- How it is compared. -/
  operator : Operator
  /-- What it is compared with. -/
  operand : Operand
  deriving DecidableEq, Repr

/-- **The normal form of a filter.** -/
inductive NormalForm where
  /-- A comparison. -/
  | comparison (c : Comparison)
  /-- A group with one child. -/
  | single (inner : NormalForm)
  /-- A group with two children or more. -/
  | joined (connector : Connector) (first second : NormalForm) (more : List NormalForm)
  deriving Repr

/-! ### Comparisons -/

/-- Whether an operand is a list. -/
def Operand.isList : Operand → Bool
  | .scalar _ => false
  | .list _ => true

/-- Whether an operator is one of the library's own. -/
def Operator.isBuiltIn : Operator → Bool
  | .other _ => false
  | _ => true

/-- The names of placeholders for a list of values, counted from `next`. -/
def placeholders (next : Nat) (values : List Value) : List String :=
  (Clause.bound next values).map Prod.fst

/-- The tokens of an operand: a placeholder for each value. -/
def Operand.tokens (next : Nat) : Operand → List Token
  | .scalar _ => [.placeholder (Clause.placeholder next)]
  | .list values => parenthesized (commaSeparated ((placeholders next values).map fun p =>
      [Token.placeholder p]))

namespace Comparison

/-- The tokens of a comparison. -/
def tokens (next : Nat) (c : Comparison) : List Token :=
  .word c.column :: c.operator.tokens ++ c.operand.tokens next

/-- **A comparison fits** if its column can be written and its operand is of the kind that the
operator takes. -/
structure Fits (c : Comparison) : Prop where
  /-- The column is a plain identifier. -/
  column : isIdentifier c.column
  /-- The operator takes such operands. -/
  operand : c.operator.takesList = c.operand.isList

end Comparison

/-- **A comparison is compiled exactly if it fits.** -/
theorem Predicate.compare_eq_ok {next : Nat} {column : String} {operator : Operator}
    {operand : Operand} {f : Fragment}
    (h : Predicate.compare next column operator operand = .ok f) :
    (Comparison.mk column operator operand).Fits ∧
      f = ⟨(Comparison.mk column operator operand).tokens next, operand.values⟩ := by
  unfold compare at h
  cases hcheck : checkIdentifier column with
  | error e => simp [hcheck, bind, Except.bind] at h
  | ok u =>
      have hcolumn := checkIdentifier_eq_ok_iff.mp hcheck
      cases hlist : operator.takesList <;> cases operand <;>
        simp [hcheck, hlist, bind, Except.bind] at h
      · exact ⟨⟨hcolumn, hlist⟩, h.symm⟩
      · refine ⟨⟨hcolumn, hlist⟩, h.symm.trans ?_⟩
        simp [Comparison.tokens, Operand.tokens, Operand.values, placeholders, Function.comp_def]

/-! ### Normal forms -/

namespace NormalForm

mutual

/-- The comparisons of a normal form, in order. -/
def comparisons : NormalForm → List Comparison
  | .comparison c => [c]
  | .single inner => inner.comparisons
  | .joined _ first second more =>
      first.comparisons ++ (second.comparisons ++ allComparisons more)
termination_by structural n => n

/-- The comparisons of some normal forms, in order. -/
def allComparisons : List NormalForm → List Comparison
  | [] => []
  | n :: rest => n.comparisons ++ allComparisons rest
termination_by structural ns => ns

end

/-- The values that a normal form binds, in the order of their placeholders. -/
def values (n : NormalForm) : List Value :=
  n.comparisons.flatMap fun c => c.operand.values

/-- The values that some normal forms bind. -/
def allValues (ns : List NormalForm) : List Value :=
  (allComparisons ns).flatMap fun c => c.operand.values

mutual

/-- **How a normal form is written**, with placeholders counted from `next`. -/
def tokens (next : Nat) : NormalForm → List Token
  | .comparison c => c.tokens next
  | .single inner => parenthesized (inner.tokens next)
  | .joined connector first second more =>
      parenthesized (separated [.word connector.sql] (first.tokens next ::
        second.tokens (next + first.values.length) ::
          allTokens (next + first.values.length + second.values.length) more))
termination_by structural n => n

/-- How some normal forms are written, one after the other. -/
def allTokens (next : Nat) : List NormalForm → List (List Token)
  | [] => []
  | n :: rest => n.tokens next :: allTokens (next + n.values.length) rest
termination_by structural ns => ns

end

/-- **The group of some normal forms**, if there are any: with one child it has no connector. -/
def group? (connector : Connector) : List NormalForm → Option NormalForm
  | [] => none
  | [n] => some (.single n)
  | first :: second :: more => some (.joined connector first second more)

/-- The values of a normal form as those of a list. -/
theorem values_def (n : NormalForm) : n.values = allValues [n] := by
  simp [values, allValues, allComparisons]

/-- The values of some normal forms are those of one after the other. -/
theorem allValues_cons (n : NormalForm) (ns : List NormalForm) :
    allValues (n :: ns) = n.values ++ allValues ns := by
  simp [allValues, allComparisons, values]

/-- The comparisons of two lists of normal forms, one after the other. -/
theorem allComparisons_append (ns ms : List NormalForm) :
    allComparisons (ns ++ ms) = allComparisons ns ++ allComparisons ms := by
  induction ns with
  | nil => rfl
  | cons n ns ih => simp [allComparisons, ih]

/-- A normal form compares something. -/
theorem comparisons_ne_nil (n : NormalForm) : n.comparisons ≠ [] := by
  cases n with
  | comparison c => simp [comparisons]
  | single inner => exact comparisons_ne_nil inner
  | joined connector first second more => simp [comparisons, comparisons_ne_nil first]

/-- A normal form is written as something. -/
theorem tokens_ne_nil (next : Nat) (n : NormalForm) : n.tokens next ≠ [] := by
  cases n <;> simp [tokens, Comparison.tokens, parenthesized]

/-- A group is made of what its children are made of. -/
theorem comparisons_group? (connector : Connector) (ns : List NormalForm) :
    allComparisons (group? connector ns).toList = allComparisons ns := by
  match ns with
  | [] => rfl
  | [n] => simp [group?, allComparisons, comparisons]
  | first :: second :: more => simp [group?, allComparisons, comparisons]

/-- A group is written as its children in parentheses. -/
theorem tokens_group? {connector : Connector} {ns : List NormalForm} {n : NormalForm}
    (h : group? connector ns = some n) (next : Nat) :
    n.tokens next = parenthesized (separated [.word connector.sql] (allTokens next ns)) := by
  match ns, h with
  | [m], rfl => simp [tokens, allTokens, separated]
  | first :: second :: more, rfl => simp [tokens, allTokens]

/-- A group binds what its children bind. -/
theorem values_group? {connector : Connector} {ns : List NormalForm} {n : NormalForm}
    (h : group? connector ns = some n) : n.values = allValues ns := by
  have hc := comparisons_group? connector ns
  rw [h, Option.toList_some] at hc
  rw [values_def, allValues, hc, allValues]

end NormalForm

namespace Predicate

mutual

/-- The comparisons of a filter, in order. -/
def comparisons : Predicate → List Comparison
  | .comparison column operator operand => [⟨column, operator, operand⟩]
  | .group _ children => allComparisons children
termination_by structural p => p

/-- The comparisons of some filters, in order. -/
def allComparisons : List Predicate → List Comparison
  | [] => []
  | p :: rest => p.comparisons ++ allComparisons rest
termination_by structural ps => ps

end

mutual

/-- **The normal form of a filter**, if it compares anything: groups that contain no comparison are
dropped, and a group that is left with one child forgets its connector. -/
def norm : Predicate → Option NormalForm
  | .comparison column operator operand => some (.comparison ⟨column, operator, operand⟩)
  | .group connector children => NormalForm.group? connector (norms children)
termination_by structural p => p

/-- The normal forms of some filters that compare anything. -/
def norms : List Predicate → List NormalForm
  | [] => []
  | p :: rest => p.norm.toList ++ norms rest
termination_by structural ps => ps

end

/-- **A filter is built in** if all its operators are. -/
def BuiltIn (p : Predicate) : Prop := ∀ c ∈ p.comparisons, c.operator.isBuiltIn

mutual

/-- **The normal form of a filter keeps its comparisons**, so a filter has none exactly if it compares
nothing. -/
theorem comparisons_norm (p : Predicate) :
    NormalForm.allComparisons p.norm.toList = p.comparisons := by
  cases p with
  | comparison column operator operand =>
      simp [norm, comparisons, NormalForm.allComparisons, NormalForm.comparisons]
  | group connector children =>
      rw [norm, comparisons, NormalForm.comparisons_group?, comparisons_norms children]

/-- **Normal forms keep the comparisons** of their filters, in order. -/
theorem comparisons_norms (ps : List Predicate) :
    NormalForm.allComparisons (norms ps) = allComparisons ps := by
  cases ps with
  | nil => rfl
  | cons p rest =>
      rw [norms, allComparisons, NormalForm.allComparisons_append, comparisons_norm p,
        comparisons_norms rest]

end

/-! ### Compiling -/

/-- The piece of a clause that a normal form is written as. -/
def piece (next : Nat) : Option NormalForm → Fragment
  | none => ⟨[], []⟩
  | some n => ⟨n.tokens next, n.values⟩

mutual

/-- **A filter is compiled as its normal form is written**, if all its comparisons fit. -/
theorem fragment_eq_ok {p : Predicate} {next : Nat} {f : Fragment} (h : p.fragment next = .ok f) :
    (∀ c ∈ p.comparisons, c.Fits) ∧ f = piece next p.norm := by
  cases p with
  | comparison column operator operand =>
      obtain ⟨hfits, hf⟩ := compare_eq_ok h
      refine ⟨by simpa [comparisons] using hfits, hf.trans ?_⟩
      simp [norm, piece, NormalForm.tokens, NormalForm.values, NormalForm.comparisons]
  | group connector children =>
      cases hc : fragments next children with
      | error e => simp [fragment, hc] at h
      | ok r =>
          obtain ⟨parts, values⟩ := r
          obtain ⟨hfits, hparts, hvalues⟩ := fragments_eq_ok hc
          refine ⟨by simpa [comparisons] using hfits, ?_⟩
          cases hn : norms children with
          | nil =>
              obtain ⟨rfl, rfl⟩ : parts = [] ∧ values = [] := by
                simp [hparts, hvalues, hn, NormalForm.allTokens, NormalForm.allValues,
                  NormalForm.allComparisons]
              have hf : ⟨[], []⟩ = f := by simpa [fragment, hc] using h
              rw [← hf, norm, hn]
              rfl
          | cons n ns =>
              obtain ⟨m, hm⟩ : ∃ m, NormalForm.group? connector (norms children) = some m := by
                rw [hn]
                cases ns <;> exact ⟨_, rfl⟩
              rw [norm, hm, piece, NormalForm.tokens_group? hm, NormalForm.values_group? hm, ← hparts,
                ← hvalues]
              rw [hn, NormalForm.allTokens] at hparts
              subst hparts
              simpa [fragment, hc] using h.symm

/-- Filters that are compiled fit, and give the tokens and values of their normal forms. -/
theorem fragments_eq_ok {ps : List Predicate} {next : Nat} {parts : List (List Token)}
    {values : List Value} (h : fragments next ps = .ok (parts, values)) :
    (∀ c ∈ allComparisons ps, c.Fits) ∧ parts = NormalForm.allTokens next (norms ps) ∧
      values = NormalForm.allValues (norms ps) := by
  cases ps with
  | nil =>
      obtain ⟨rfl, rfl⟩ : [] = parts ∧ [] = values := by simpa [fragments] using h
      simp [allComparisons, norms, NormalForm.allTokens, NormalForm.allValues,
        NormalForm.allComparisons]
  | cons p rest =>
      cases hp : p.fragment next with
      | error e => simp [fragments, hp] at h
      | ok f =>
          cases hr : fragments (next + f.values.length) rest with
          | error e => simp [fragments, hp, hr] at h
          | ok r =>
              obtain ⟨more, moreValues⟩ := r
              obtain ⟨hfits, hf⟩ := fragment_eq_ok hp
              obtain ⟨hfits', hmore, hmoreValues⟩ := fragments_eq_ok hr
              obtain ⟨hparts, hvalues⟩ :
                  (if f.tokens.isEmpty then more else f.tokens :: more) = parts ∧
                    f.values ++ moreValues = values := by
                simpa [fragments, hp, hr] using h
              refine ⟨?_, ?_⟩
              · rw [allComparisons]
                exact List.forall_mem_append.mpr ⟨hfits, hfits'⟩
              subst hf
              cases hn : p.norm with
              | none =>
                  simp only [hn, piece, List.isEmpty_nil, if_true, List.nil_append, List.length_nil,
                    Nat.add_zero] at hparts hvalues hmore
                  simp [norms, hn, ← hparts, ← hvalues, hmore, hmoreValues]
              | some n =>
                  have hne := n.tokens_ne_nil next
                  simp only [hn, piece, List.isEmpty_iff, hne, if_false] at hparts hvalues hmore
                  simp [norms, hn, ← hparts, ← hvalues, hmore, hmoreValues, NormalForm.allTokens,
                    NormalForm.allValues_cons]

end

end Predicate

end ScopedSql
