import ScopedSql.Proofs.Predicate.Readback

/-!
# Values stay behind placeholders

The values of a filter are bound to the placeholders of its clause in their order, one to each, and no
value becomes part of the text. The first is read off the normal form of the filter, whose tokens hold
as many placeholders as it has values (`NormalForm.placeholdersOf_tokens`). For the second the values are
blanked out: what is left of the filter is compiled to the same tokens (`Predicate.fragment_blank`).
Together that is `Clause.values_behind_placeholders`.
-/

namespace ScopedSql

open Sql (Token parenthesized separated commaSeparated)

/-! ### The placeholders of a text -/

namespace Sql

/-- The name of a placeholder. -/
def Token.placeholder? : Token → Option String
  | .placeholder name => some name
  | _ => none

/-- **The placeholders among some tokens**, from left to right. -/
def placeholdersOf (ts : List Token) : List String := ts.filterMap Token.placeholder?

/-- The placeholders of two lists of tokens, one after the other. -/
theorem placeholdersOf_append (ts us : List Token) :
    placeholdersOf (ts ++ us) = placeholdersOf ts ++ placeholdersOf us :=
  List.filterMap_append

/-- Parentheses add no placeholder. -/
theorem placeholdersOf_parenthesized (ts : List Token) :
    placeholdersOf (parenthesized ts) = placeholdersOf ts := by
  rw [parenthesized, List.cons_append, placeholdersOf, List.filterMap_cons, List.filterMap_append]
  exact List.append_nil _

/-- A separator that is no placeholder adds none. -/
theorem placeholdersOf_separated {t : Token} (ht : t.placeholder? = none)
    (parts : List (List Token)) :
    placeholdersOf (separated [t] parts) = parts.flatMap placeholdersOf := by
  cases parts with
  | nil => rfl
  | cons part parts =>
      have hpart : ∀ part, placeholdersOf (t :: part) = placeholdersOf part := by
        intro part
        rw [placeholdersOf, List.filterMap_cons, ht, placeholdersOf]
      rw [separated_cons, placeholdersOf_append, List.flatMap_cons]
      congr 1
      induction parts with
      | nil => rfl
      | cons next parts ih =>
          rw [List.flatMap_cons, placeholdersOf_append, hpart, ih, List.flatMap_cons]

end Sql

/-- The placeholders of values that follow others go on with the numbers. -/
theorem placeholders_append (next : Nat) (xs ys : List Value) :
    placeholders next (xs ++ ys) =
      placeholders next xs ++ placeholders (next + xs.length) ys := by
  simp [placeholders, Clause.bound, List.zipIdx_append]

/-- An operator has no placeholder. -/
theorem Operator.placeholdersOf_tokens (o : Operator) : Sql.placeholdersOf o.tokens = [] := by
  cases o <;> rfl

/-- An operand is written with a placeholder for each of its values. -/
theorem Operand.placeholdersOf_tokens (next : Nat) (o : Operand) :
    Sql.placeholdersOf (o.tokens next) = placeholders next o.values := by
  cases o with
  | scalar v => rfl
  | list values =>
      rw [tokens, Sql.placeholdersOf_parenthesized, commaSeparated,
        Sql.placeholdersOf_separated rfl, List.flatMap_map]
      exact List.flatMap_singleton' _

/-- The placeholders of a comparison are counted on, one for each value. -/
theorem Comparison.placeholdersOf_tokens (next : Nat) (c : Comparison) :
    Sql.placeholdersOf (c.tokens next) = placeholders next c.operand.values := by
  rw [tokens, Sql.placeholdersOf_append, c.operand.placeholdersOf_tokens]
  change Sql.placeholdersOf c.operator.tokens ++ _ = _
  rw [c.operator.placeholdersOf_tokens, List.nil_append]

namespace NormalForm

mutual

/-- **A normal form is written with a placeholder for each of its values**, in their order. -/
theorem placeholdersOf_tokens (next : Nat) (n : NormalForm) :
    Sql.placeholdersOf (n.tokens next) = placeholders next n.values := by
  cases n with
  | comparison c => simp [tokens, values, comparisons, c.placeholdersOf_tokens]
  | single inner =>
      rw [tokens, Sql.placeholdersOf_parenthesized, placeholdersOf_tokens next inner]
      rfl
  | joined connector first second more =>
      rw [tokens, Sql.placeholdersOf_parenthesized, Sql.placeholdersOf_separated rfl,
        List.flatMap_cons, List.flatMap_cons, placeholdersOf_tokens next first,
        placeholdersOf_tokens _ second, placeholdersOf_allTokens _ more, values_joined,
        placeholders_append, placeholders_append]

/-- The placeholders of some normal forms are counted on from one to the next. -/
theorem placeholdersOf_allTokens (next : Nat) (ns : List NormalForm) :
    (allTokens next ns).flatMap Sql.placeholdersOf = placeholders next (allValues ns) := by
  cases ns with
  | nil => rfl
  | cons n ns =>
      rw [allTokens, List.flatMap_cons, placeholdersOf_tokens next n,
        placeholdersOf_allTokens _ ns, allValues_cons, placeholders_append]

end

end NormalForm

/-! ### Filters without their values -/

/-- An operand of the same form and length whose values are absent. -/
def Operand.blank : Operand → Operand
  | .scalar _ => .scalar .null
  | .list values => .list (values.map fun _ => .null)

/-- A piece of a clause whose values are absent. -/
def Fragment.blank (f : Fragment) : Fragment := ⟨f.tokens, f.values.map fun _ => .null⟩

namespace Predicate

/-- **The values of a filter**, in order. -/
def values (p : Predicate) : List Value :=
  p.comparisons.flatMap fun c => c.operand.values

mutual

/-- **A filter without its values**: columns, operators, connectors and the forms and lengths of operands
are what is left of it. -/
def blank : Predicate → Predicate
  | .comparison column operator operand => .comparison column operator operand.blank
  | .group connector children => .group connector (blankAll children)
termination_by structural p => p

/-- Some filters without their values. -/
def blankAll : List Predicate → List Predicate
  | [] => []
  | p :: rest => p.blank :: blankAll rest
termination_by structural ps => ps

end

/-- The values of a comparison have no part in its tokens, nor in why it is refused. -/
theorem compare_blank (next : Nat) (column : String) (operator : Operator) (operand : Operand) :
    compare next column operator operand.blank =
      (compare next column operator operand).map Fragment.blank := by
  unfold compare
  cases checkIdentifier column with
  | error e => rfl
  | ok u =>
      have hnames : ∀ values : List Value,
          placeholders next (values.map fun _ => .null) = placeholders next values := by
        simp [placeholders_eq]
      cases operand with
      | scalar v => cases operator.takesList <;> rfl
      | list values =>
          cases operator.takesList with
          | false => rfl
          | true =>
              have hbound : ((Clause.bound next (values.map fun _ => Value.null)).map fun b =>
                  [Token.placeholder b.1]) =
                    (Clause.bound next values).map fun b => [Token.placeholder b.1] := by
                have h := congrArg (List.map fun p => [Token.placeholder p]) (hnames values)
                simpa only [placeholders, List.map_map, Function.comp_def] using h
              exact congrArg (fun names => Except.ok (Fragment.mk (.word column :: operator.tokens ++
                parenthesized (commaSeparated names)) (values.map fun _ => .null))) hbound

mutual

/-- **The values of a filter have no part in its tokens**, nor in why it is refused. -/
theorem fragment_blank (next : Nat) (p : Predicate) :
    p.blank.fragment next = (p.fragment next).map Fragment.blank := by
  cases p with
  | comparison column operator operand => exact compare_blank next column operator operand
  | group connector children =>
      rw [blank, fragment, fragments_blank next children, fragment]
      match fragments next children with
      | .error e => rfl
      | .ok ([], values) => rfl
      | .ok (part :: parts, values) => rfl

/-- Filters without their values are compiled to the same tokens. -/
theorem fragments_blank (next : Nat) (ps : List Predicate) :
    fragments next (blankAll ps) =
      (fragments next ps).map fun r => (r.1, r.2.map fun _ => .null) := by
  cases ps with
  | nil => rfl
  | cons p rest =>
      rw [blankAll, fragments, fragment_blank next p, fragments]
      cases p.fragment next with
      | error e => rfl
      | ok f =>
          simp only [Except.map, Fragment.blank, List.length_map, fragments_blank _ rest]
          cases fragments (next + f.values.length) rest with
          | error e => rfl
          | ok r => simp

end

/-! ### Filters without comparisons -/

mutual

/-- **A filter that compares nothing** is compiled to nothing. -/
theorem fragment_of_comparisons_nil {p : Predicate} (h : p.comparisons = []) (next : Nat) :
    p.fragment next = .ok ⟨[], []⟩ := by
  cases p with
  | comparison column operator operand => simp [comparisons] at h
  | group connector children =>
      rw [comparisons] at h
      rw [fragment, fragments_of_comparisons_nil h]

/-- Filters without comparisons are compiled to nothing. -/
theorem fragments_of_comparisons_nil {ps : List Predicate} (h : allComparisons ps = [])
    (next : Nat) : fragments next ps = .ok ([], []) := by
  cases ps with
  | nil => rfl
  | cons p rest =>
      rw [allComparisons, List.append_eq_nil_iff] at h
      rw [fragments, fragment_of_comparisons_nil h.1]
      simp [fragments_of_comparisons_nil h.2]

end

/-- The values of a filter are those of its normal form. -/
theorem allValues_norm (p : Predicate) : NormalForm.allValues p.norm.toList = p.values := by
  rw [NormalForm.allValues, comparisons_norm, values]

end Predicate

/-! ### Clauses -/

namespace Clause

/-- **A clause binds some values**: it has as many placeholders, which are numbered in the order of
the values, and each of them is bound to its value. -/
structure BindsExactly (c : Clause) (values : List Value) : Prop where
  /-- The placeholders that are bound. -/
  names : c.bindings.names.Perm ((List.range' 1 values.length).map placeholder)
  /-- What they are bound to. -/
  get? : ∀ i v, values[i]? = some v → c.bindings.get? (placeholder (i + 1)) = some v

/-- The clause of a normal form binds its values. -/
theorem bindsExactly_ofNorm (n : Option NormalForm) :
    (ofNorm n).BindsExactly (NormalForm.allValues n.toList) := by
  cases n with
  | none =>
      refine ⟨.nil, fun i v hv => ?_⟩
      simp [NormalForm.allValues, NormalForm.allComparisons] at hv
  | some n =>
      rw [Option.toList_some, ← NormalForm.values_def]
      refine ⟨?_, fun i v hv => ?_⟩
      · rw [← placeholders_eq]
        exact NameMap.names_ofList_perm (nodup_bound 1 n.values)
      · rw [Nat.add_comm]
        exact binds_bound 1 n.values i v hv

/-- The tokens of a clause hold a placeholder for each value of its filter. -/
theorem placeholdersOf_ofNorm (n : Option NormalForm) : Sql.placeholdersOf (ofNorm n).tokens =
    (List.range' 1 (NormalForm.allValues n.toList).length).map placeholder := by
  rw [← placeholders_eq]
  cases n with
  | none => rfl
  | some n =>
      rw [Option.toList_some, ← NormalForm.values_def, ← n.placeholdersOf_tokens]
      rfl

/-- A filter without its values is compiled to the same tokens, or refused for the same reason. -/
theorem map_tokens_blank (p : Predicate) :
    (ofPredicate (some p.blank)).map tokens = (ofPredicate (some p)).map tokens := by
  rw [ofPredicate, ofPredicate, p.fragment_blank 1]
  cases p.fragment 1 with
  | error e => rfl
  | ok f =>
      obtain ⟨ts, values⟩ := f
      cases ts <;> rfl

/-- **Values stay behind placeholders.** The clause of a filter binds the values of its comparisons, each
once and in their order, and if all operators are built in, these are the placeholders of its text from
left to right. Filters that differ only in their values have the same text, or are refused for the same
reason. And a filter without comparisons has no clause at all. -/
theorem values_behind_placeholders (p : Predicate) :
    (∀ c, ofPredicate (some p) = .ok c → c.BindsExactly p.values ∧
        (p.BuiltIn → ∃ ts, Sql.lex c.text.toList = some ts ∧
          Sql.placeholdersOf ts = (List.range' 1 p.values.length).map placeholder)) ∧
      (∀ q : Predicate, q.blank = p.blank →
        (ofPredicate (some q)).map text = (ofPredicate (some p)).map text) ∧
      (p.comparisons = [] → ofPredicate (some p) = .ok nothing) := by
  refine ⟨fun c hc => ?_, fun q hq => ?_, fun hnone => ?_⟩
  · obtain ⟨hfits, rfl⟩ := ofPredicate_eq_ok hc
    rw [← p.allValues_norm]
    refine ⟨bindsExactly_ofNorm p.norm, fun hbuiltIn => ⟨_, lex_ofNorm ?_, placeholdersOf_ofNorm _⟩⟩
    intro x hx
    rw [p.comparisons_norm] at hx
    exact ⟨hfits x hx, hbuiltIn x hx⟩
  · have htext : ∀ r : Predicate, (ofPredicate (some r)).map text =
        ((ofPredicate (some r)).map tokens).map Sql.textOf := by
      intro r
      cases ofPredicate (some r) <;> rfl
    rw [htext, htext, ← map_tokens_blank q, hq, map_tokens_blank p]
  · simp [ofPredicate, Predicate.fragment_of_comparisons_nil hnone, bind, Except.bind]

/-- A filter with more than nine values: the tenth placeholder is not taken for the first one. Other
values do not change the text, whatever they look like. -/
theorem values_behind_placeholders_ten :
    (∃ c, ofPredicate (some (.group .or [.group .and [],
          .comparison "a" .isIn (.list ((List.range 10).map fun _ => .null)),
          .comparison "b" .eq (.scalar (.text "@whr1"))])) = .ok c ∧
      c.bindings.get? "@whr11" = some (.text "@whr1") ∧ c.bindings.get? "@whr1" = some .null ∧
      (∃ ts, Sql.lex c.text.toList = some ts ∧ Sql.placeholdersOf ts = ["@whr1", "@whr2", "@whr3",
        "@whr4", "@whr5", "@whr6", "@whr7", "@whr8", "@whr9", "@whr10", "@whr11"]) ∧
      (ofPredicate (some (.group .or [.group .and [],
          .comparison "a" .isIn (.list ((List.range 10).map fun n => .text (toString n))),
          .comparison "b" .eq (.scalar (.text "') OR (1 = 1"))]))).map text = .ok c.text) ∧
    ofPredicate (some (.group .or [.group .and []])) = .ok nothing := by
  obtain ⟨hbinds, htext, -⟩ := values_behind_placeholders (.group .or [.group .and [],
    .comparison "a" .isIn (.list ((List.range 10).map fun _ => .null)),
    .comparison "b" .eq (.scalar (.text "@whr1"))])
  refine ⟨⟨_, rfl, (hbinds _ rfl).1.get? 10 _ rfl, (hbinds _ rfl).1.get? 0 _ rfl, ?_, ?_⟩,
    (values_behind_placeholders _).2.2 rfl⟩
  · exact (hbinds _ rfl).2 (by unfold Predicate.BuiltIn; decide)
  · exact htext (.group .or [.group .and [],
      .comparison "a" .isIn (.list ((List.range 10).map fun n => .text (toString n))),
      .comparison "b" .eq (.scalar (.text "') OR (1 = 1"))]) rfl

end Clause

end ScopedSql
