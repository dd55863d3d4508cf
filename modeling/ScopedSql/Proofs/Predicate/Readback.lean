import ScopedSql.Proofs.Predicate.NormalForm
import ScopedSql.Proofs.Sql.Lexing
import ScopedSql.Sql.Reader

/-!
# Clauses are read back

`Clause.read?` reads the text of a clause, puts the bound values in the places of the placeholders and
returns a normal form. It knows nothing of precedence, and tells columns from keywords by their place.
A filter is compiled to the clause of its normal form (`ofPredicate_eq_ok`), and that clause is read
back (`read?_ofNorm`). Hence `clause_denotes`: two filters are compiled to the same clause exactly if
they have the same normal form.
-/

namespace ScopedSql

open Sql (Token parenthesized separated commaSeparated)

/-! ### Placeholders -/

/-- The name of a placeholder is `@whr` and a number. -/
theorem Clause.toList_placeholder (n : Nat) :
    (Clause.placeholder n).toList = '@' :: 'w' :: 'h' :: 'r' :: Nat.toDigits 10 n := by
  rw [Clause.placeholder, String.toList_append]
  exact congrArg _ Nat.toList_repr

/-- Placeholders are told apart by their numbers. -/
theorem Clause.placeholder_inj {m n : Nat} :
    Clause.placeholder m = Clause.placeholder n ↔ m = n := by
  refine ⟨fun h => ?_, congrArg _⟩
  have hlist := congrArg String.toList h
  simp only [Clause.toList_placeholder, List.cons.injEq, true_and] at hlist
  have hnumber := congrArg (Nat.ofDigitChars 10 · 0) hlist
  simpa [Nat.ofDigitChars_toDigits] using hnumber

/-- A placeholder is a plain token. -/
theorem Clause.placeholder_plain (n : Nat) : (Token.placeholder (Clause.placeholder n)).plain := by
  have hdigits : ∀ c ∈ Nat.toDigits 10 n, isIdentifierRest c := by
    intro c hc
    have hdigit := Nat.isDigit_of_mem_toDigits (by decide) (by decide) hc
    simp [isIdentifierRest, Char.isAlphanum, hdigit]
  simp only [Token.plain, Clause.toList_placeholder, List.all_cons, Bool.and_eq_true,
    List.all_eq_true]
  exact ⟨by decide, by decide, by decide, hdigits⟩

/-- **Values are bound to placeholders** that are counted from `next`. -/
def Binds (b : Bindings) (next : Nat) (values : List Value) : Prop :=
  ∀ i v, values[i]? = some v → b.get? (Clause.placeholder (next + i)) = some v

/-- Values that are bound are bound in two parts, too. -/
theorem Binds.append {b : Bindings} {next : Nat} {xs ys : List Value}
    (h : Binds b next (xs ++ ys)) : Binds b next xs ∧ Binds b (next + xs.length) ys := by
  refine ⟨fun i v hv => h i v ?_, fun i v hv => ?_⟩
  · rw [List.getElem?_append_left (List.getElem?_eq_some_iff.mp hv).1, hv]
  · rw [Nat.add_assoc]
    refine h (xs.length + i) v ?_
    rw [List.getElem?_append_right (Nat.le_add_right _ _), Nat.add_sub_cancel_left, hv]

/-- The names of the placeholders of some values are numbered. -/
theorem placeholders_eq (next : Nat) (values : List Value) :
    placeholders next values = (List.range' next values.length).map Clause.placeholder := by
  rw [← List.zipIdx_map_snd, placeholders, Clause.bound, List.map_map, List.map_map]
  rfl

/-- No placeholder is bound twice. -/
theorem Clause.nodup_bound (next : Nat) (values : List Value) :
    ((Clause.bound next values).map Prod.fst).Nodup := by
  rw [← placeholders, placeholders_eq]
  refine List.pairwise_map.mpr ((List.nodup_range' 1).imp fun hne heq => ?_)
  exact hne (Clause.placeholder_inj.mp heq)

/-- What is bound to placeholders that are counted from `next`. -/
theorem Clause.mem_bound_iff {next : Nat} {values : List Value} {name : String} {v : Value} :
    (name, v) ∈ Clause.bound next values ↔
      ∃ i, values[i]? = some v ∧ name = Clause.placeholder (next + i) := by
  simp only [Clause.bound, List.mem_map, Prod.exists, Prod.mk.injEq,
    List.mem_zipIdx_iff_le_and_getElem?_sub]
  constructor
  · rintro ⟨v', n, ⟨hn, hv⟩, rfl, rfl⟩
    exact ⟨n - next, hv, by rw [Nat.add_sub_cancel' hn]⟩
  · rintro ⟨i, hv, rfl⟩
    exact ⟨v, next + i, ⟨Nat.le_add_right _ _, by rwa [Nat.add_sub_cancel_left]⟩, rfl, rfl⟩

/-- **What a clause binds**: each of its values to the placeholder of its number, and nothing else. -/
theorem Clause.get?_ofList_bound {next : Nat} {values : List Value} {name : String} {v : Value} :
    (NameMap.ofList (Clause.bound next values)).get? name = some v ↔
      ∃ i, values[i]? = some v ∧ name = Clause.placeholder (next + i) := by
  have hnodup := Clause.nodup_bound next values
  rw [NameMap.get?_ofList hnodup, NameMap.lookup_eq_some_iff_mem hnodup, Clause.mem_bound_iff]

/-- **The bindings of a clause bind its values.** -/
theorem binds_bound (next : Nat) (values : List Value) :
    Binds (NameMap.ofList (Clause.bound next values)) next values :=
  fun i _ hv => Clause.get?_ofList_bound.mpr ⟨i, hv, rfl⟩

/-! ### A reader for clauses -/

namespace Sql.Condition

mutual

/-- **What a condition denotes** when values are put in the places of its placeholders. -/
def denote? (b : Bindings) : Condition → Option NormalForm
  | .compare column operator p =>
      (b.get? p).map fun v => .comparison ⟨column, operator, .scalar v⟩
  | .among column negated ps =>
      (ps.mapM b.get?).map fun vs =>
        .comparison ⟨column, if negated then .notIn else .isIn, .list vs⟩
  | .single inner => (inner.denote? b).map .single
  | .joined connector first second more =>
      match first.denote? b, second.denote? b, denoteAll? b more with
      | some first, some second, some more => some (.joined connector first second more)
      | _, _, _ => none
termination_by structural c => c

/-- What some conditions denote. -/
def denoteAll? (b : Bindings) : List Condition → Option (List NormalForm)
  | [] => some []
  | c :: rest =>
      match c.denote? b, denoteAll? b rest with
      | some n, some ns => some (n :: ns)
      | _, _ => none
termination_by structural cs => cs

end

end Sql.Condition

/-- **Reads a clause** with its bindings: the normal form of the filter that it is the clause of, if
there is a clause at all. -/
def Clause.read? (text : String) (b : Bindings) : Option (Option NormalForm) :=
  match (Sql.lex text.toList).bind Sql.readWhere? with
  | some (none, []) => some none
  | some (some c, []) => (c.denote? b).map some
  | _ => none

/-! ### Reading conditions -/

/-- Behind the first part of a list each part stands after a separator. -/
theorem Sql.separated_cons (t : Token) (part : List Token) (parts : List (List Token)) :
    separated [t] (part :: parts) = part ++ parts.flatMap (t :: ·) := by
  induction parts generalizing part with
  | nil => simp [separated]
  | cons next parts ih =>
      have hstep : separated [t] (part :: next :: parts) =
          part ++ [t] ++ separated [t] (next :: parts) := rfl
      rw [hstep, ih, List.flatMap_cons]
      simp

/-- A list of placeholders is read up to its end. -/
theorem Sql.readPlaceholders?_eq (names : List String) (rest : List Token) :
    readPlaceholders? (commaSeparated (names.map fun p => [Token.placeholder p]) ++
      .closing :: rest) = some (names, rest) := by
  induction names with
  | nil => rfl
  | cons p names ih =>
      cases names with
      | nil => rfl
      | cons q names =>
          have hstep : commaSeparated ((p :: q :: names).map fun p => [Token.placeholder p]) =
              .placeholder p :: .comma ::
                commaSeparated ((q :: names).map fun p => [Token.placeholder p]) := rfl
          rw [hstep, List.cons_append, List.cons_append, readPlaceholders?, ih]
          rfl

@[simp] theorem Sql.connector?_word (c : Connector) :
    Sql.connector? (.word c.sql) = some c := by
  cases c <;> rfl

/-- The values of a list of placeholders. -/
theorem mapM_placeholders {b : Bindings} {next : Nat} {values : List Value}
    (hb : Binds b next values) : (placeholders next values).mapM b.get? = some values := by
  induction values generalizing next with
  | nil => rfl
  | cons v values ih =>
      have hfirst : b.get? (Clause.placeholder next) = some v := hb 0 v rfl
      have hsplit : Binds b next ([v] ++ values) := hb
      have hrest : (placeholders (next + 1) values).mapM b.get? = some values := ih hsplit.append.2
      have hcons : placeholders next (v :: values) =
          Clause.placeholder next :: placeholders (next + 1) values := rfl
      simp [hcons, List.mapM_cons, hfirst, hrest]

/-- **A comparison is read back.** -/
theorem Comparison.exists_readCondition? {c : Comparison} {b : Bindings} {next fuel : Nat}
    (hc : c.Fits) (ho : c.operator.isBuiltIn) (hb : Binds b next c.operand.values) :
    ∃ d, (∀ rest, Sql.readCondition? (fuel + 1) (c.tokens next ++ rest) = some (d, rest)) ∧
      d.denote? b = some (.comparison c) := by
  obtain ⟨column, operator, operand⟩ := c
  have htakes := hc.operand
  cases operand with
  | scalar v =>
      have hv : b.get? (Clause.placeholder next) = some v := hb 0 v rfl
      cases operator with
      | isIn | notIn => cases htakes
      | other => cases ho
      | _ =>
          exact ⟨.compare column _ (Clause.placeholder next), fun _ => rfl,
            by simp [Sql.Condition.denote?, hv]⟩
  | list values =>
      have hnames := Sql.readPlaceholders?_eq (placeholders next values)
      have hvalues : (placeholders next values).mapM b.get? = some values := mapM_placeholders hb
      cases operator with
      | isIn =>
          refine ⟨.among column false (placeholders next values), fun rest => ?_, ?_⟩
          · simp [tokens, Operator.tokens, Operand.tokens, parenthesized, Sql.readCondition?, hnames]
          · simp [Sql.Condition.denote?, hvalues]
      | notIn =>
          refine ⟨.among column true (placeholders next values), fun rest => ?_, ?_⟩
          · simp [tokens, Operator.tokens, Operand.tokens, parenthesized, Sql.readCondition?, hnames]
          · simp [Sql.Condition.denote?, hvalues]
      | _ => cases htakes

namespace NormalForm

/-- Comparisons that can be read back. -/
def Readable (cs : List Comparison) : Prop := ∀ c ∈ cs, c.Fits ∧ c.operator.isBuiltIn

/-- The values of a joined normal form are those of its parts, in order. -/
theorem values_joined (connector : Connector) (first second : NormalForm)
    (more : List NormalForm) : (joined connector first second more).values =
      first.values ++ (second.values ++ allValues more) := by
  simp [values, allValues, comparisons]

mutual

/-- **A normal form is read back** from the tokens that it is written as, whatever follows them. -/
theorem exists_readCondition? (n : NormalForm) {b : Bindings} {next fuel : Nat}
    (hr : Readable n.comparisons) (hb : Binds b next n.values)
    (hf : (n.tokens next).length ≤ fuel) :
    ∃ d, (∀ rest, Sql.readCondition? fuel (n.tokens next ++ rest) = some (d, rest)) ∧
      d.denote? b = some n := by
  cases n with
  | comparison c =>
      obtain ⟨fuel, rfl⟩ : ∃ k, fuel = k + 1 :=
        ⟨fuel - 1, by simp [tokens, Comparison.tokens] at hf; omega⟩
      obtain ⟨hc, ho⟩ := hr c (by simp [comparisons])
      exact c.exists_readCondition? hc ho (by simpa [values, comparisons] using hb)
  | single inner =>
      have hlist : ∀ rest, (single inner).tokens next ++ rest =
          .opening :: (inner.tokens next ++ .closing :: rest) := by
        intro rest
        simp [tokens, parenthesized]
      have hlength := congrArg List.length (hlist [])
      simp only [List.append_nil, List.length_cons, List.length_append, List.length_nil] at hlength
      obtain ⟨fuel, rfl⟩ : ∃ k, fuel = k + 1 := ⟨fuel - 1, by omega⟩
      obtain ⟨d, hread, hdenote⟩ := exists_readCondition? inner (by simpa [comparisons] using hr)
        (by simpa [values, comparisons] using hb) (show _ ≤ fuel by omega)
      refine ⟨.single d, fun rest => ?_, by simp [Sql.Condition.denote?, hdenote]⟩
      rw [hlist]
      simp [Sql.readCondition?, hread]
  | joined connector first second more =>
      have hlist : ∀ rest, (joined connector first second more).tokens next ++ rest =
          .opening :: (first.tokens next ++ .word connector.sql ::
            (second.tokens (next + first.values.length) ++
              ((allTokens (next + first.values.length + second.values.length) more).flatMap
                (.word connector.sql :: ·) ++ .closing :: rest))) := by
        intro rest
        simp [tokens, parenthesized, Sql.separated_cons]
      have hlength := congrArg List.length (hlist [])
      simp only [List.append_nil, List.length_cons, List.length_append, List.length_nil] at hlength
      obtain ⟨fuel, rfl⟩ : ∃ k, fuel = k + 1 := ⟨fuel - 1, by omega⟩
      rw [comparisons] at hr
      obtain ⟨hrFirst, hrRest⟩ := List.forall_mem_append.mp hr
      obtain ⟨hrSecond, hrMore⟩ := List.forall_mem_append.mp hrRest
      rw [values_joined] at hb
      obtain ⟨hbFirst, hbRest⟩ := hb.append
      obtain ⟨hbSecond, hbMore⟩ := hbRest.append
      obtain ⟨d₁, hread₁, hdenote₁⟩ := exists_readCondition? first hrFirst hbFirst
        (show _ ≤ fuel by omega)
      obtain ⟨d₂, hread₂, hdenote₂⟩ := exists_readCondition? second hrSecond hbSecond
        (show _ ≤ fuel by omega)
      obtain ⟨ds, hread, hdenote⟩ := exists_readParts? more connector hrMore hbMore
        (show _ < fuel by omega)
      refine ⟨.joined connector d₁ d₂ ds, fun rest => ?_, ?_⟩
      · rw [hlist]
        simp [Sql.readCondition?, hread₁, hread₂, hread]
      · simp [Sql.Condition.denote?, hdenote₁, hdenote₂, hdenote]

/-- The further parts of a group are read back. -/
theorem exists_readParts? (ns : List NormalForm) (connector : Connector) {b : Bindings}
    {next fuel : Nat} (hr : Readable (allComparisons ns)) (hb : Binds b next (allValues ns))
    (hf : ((allTokens next ns).flatMap (Token.word connector.sql :: ·)).length < fuel) :
    ∃ ds, (∀ rest, Sql.readParts? fuel connector
        ((allTokens next ns).flatMap (Token.word connector.sql :: ·) ++ .closing :: rest) =
          some (ds, rest)) ∧ Sql.Condition.denoteAll? b ds = some ns := by
  obtain ⟨fuel, rfl⟩ : ∃ k, fuel = k + 1 := ⟨fuel - 1, by omega⟩
  cases ns with
  | nil => exact ⟨[], fun _ => rfl, rfl⟩
  | cons n ns =>
      rw [allComparisons] at hr
      obtain ⟨hrFirst, hrRest⟩ := List.forall_mem_append.mp hr
      rw [allValues_cons] at hb
      obtain ⟨hbFirst, hbRest⟩ := hb.append
      simp only [allTokens, List.flatMap_cons, List.length_append, List.length_cons] at hf
      obtain ⟨d, hread₁, hdenote₁⟩ := exists_readCondition? n hrFirst hbFirst
        (show _ ≤ fuel by omega)
      obtain ⟨ds, hread, hdenote⟩ := exists_readParts? ns connector hrRest hbRest
        (show _ < fuel by omega)
      refine ⟨d :: ds, fun rest => ?_, by simp [Sql.Condition.denoteAll?, hdenote₁, hdenote]⟩
      rw [allTokens, List.flatMap_cons, List.append_assoc, List.cons_append]
      simp [Sql.readParts?, hread₁, hread]

end

end NormalForm

/-! ### The tokens of a normal form -/

section Tokens

variable {P : Token → Prop}

/-- What holds of a separator and of all parts holds of the separated list. -/
theorem Sql.forall_separated {t : Token} {parts : List (List Token)} (ht : P t)
    (hp : ∀ part ∈ parts, ∀ u ∈ part, P u) : ∀ u ∈ separated [t] parts, P u := by
  intro u hu
  cases parts with
  | nil => cases hu
  | cons part parts =>
      obtain ⟨hpart, hparts⟩ := List.forall_mem_cons.mp hp
      rw [Sql.separated_cons] at hu
      rcases List.mem_append.mp hu with hu | hu
      · exact hpart u hu
      · obtain ⟨next, hnext, hu⟩ := List.mem_flatMap.mp hu
        rcases List.mem_cons.mp hu with rfl | hu
        · exact ht
        · exact hparts next hnext u hu

/-- What holds of both parentheses and of some tokens holds of the tokens in parentheses. -/
theorem Sql.forall_parenthesized {ts : List Token} (hopening : P .opening) (hclosing : P .closing)
    (h : ∀ t ∈ ts, P t) : ∀ t ∈ parenthesized ts, P t := by
  intro t ht
  obtain rfl | ht | rfl : t = .opening ∨ t ∈ ts ∨ t = .closing := by simpa [parenthesized] using ht
  · exact hopening
  · exact h t ht
  · exact hclosing

end Tokens

/-- **A property covers some comparisons** if it has all tokens with which they and the groups around
them can be written. -/
structure Sql.Covers (P : Token → Prop) (cs : List Comparison) : Prop where
  /-- Parentheses open. -/
  opening : P .opening
  /-- Parentheses close. -/
  closing : P .closing
  /-- Commas stand between placeholders. -/
  comma : P .comma
  /-- Connectors stand between the parts of a group. -/
  connector : ∀ c : Connector, P (.word c.sql)
  /-- Placeholders are numbered. -/
  placeholder : ∀ n, P (.placeholder (Clause.placeholder n))
  /-- Columns are words. -/
  column : ∀ c ∈ cs, P (.word c.column)
  /-- Operators are signs or keywords. -/
  operator : ∀ c ∈ cs, ∀ t ∈ c.operator.tokens, P t

/-- A property that covers two lists of comparisons covers each of them. -/
theorem Sql.Covers.append {P : Token → Prop} {cs ds : List Comparison} (h : Covers P (cs ++ ds)) :
    Covers P cs ∧ Covers P ds :=
  ⟨{ h with
      column := (List.forall_mem_append.mp h.column).1
      operator := (List.forall_mem_append.mp h.operator).1 },
    { h with
      column := (List.forall_mem_append.mp h.column).2
      operator := (List.forall_mem_append.mp h.operator).2 }⟩

/-- The tokens of a comparison have a property that covers it. -/
theorem Comparison.forall_tokens {P : Token → Prop} (c : Comparison) (h : Sql.Covers P [c])
    (next : Nat) : ∀ t ∈ c.tokens next, P t := by
  have hoperand : ∀ t ∈ c.operand.tokens next, P t := by
    cases c.operand with
    | scalar v => exact List.forall_mem_singleton.mpr (h.placeholder next)
    | list values =>
        refine Sql.forall_parenthesized h.opening h.closing (Sql.forall_separated h.comma ?_)
        rw [placeholders_eq, List.map_map, List.forall_mem_map]
        exact fun n _ => List.forall_mem_singleton.mpr (h.placeholder n)
  rw [tokens]
  exact List.forall_mem_append.mpr
    ⟨List.forall_mem_cons.mpr ⟨h.column c (by simp), h.operator c (by simp)⟩, hoperand⟩

namespace NormalForm

variable {P : Token → Prop}

mutual

/-- **All tokens of a normal form** have a property that covers its comparisons. -/
theorem forall_tokens (n : NormalForm) (h : Sql.Covers P n.comparisons) (next : Nat) :
    ∀ t ∈ n.tokens next, P t := by
  cases n with
  | comparison c => exact c.forall_tokens h next
  | single inner =>
      exact Sql.forall_parenthesized h.opening h.closing (forall_tokens inner h next)
  | joined connector first second more =>
      rw [comparisons] at h
      obtain ⟨hFirst, hRest⟩ := h.append
      obtain ⟨hSecond, hMore⟩ := hRest.append
      refine Sql.forall_parenthesized h.opening h.closing
        (Sql.forall_separated (h.connector connector) ?_)
      refine List.forall_mem_cons.mpr ⟨forall_tokens first hFirst _, ?_⟩
      exact List.forall_mem_cons.mpr
        ⟨forall_tokens second hSecond _, forall_allTokens more hMore _⟩

/-- The tokens of some normal forms have a property that covers their comparisons. -/
theorem forall_allTokens (ns : List NormalForm) (h : Sql.Covers P (allComparisons ns))
    (next : Nat) : ∀ part ∈ allTokens next ns, ∀ t ∈ part, P t := by
  cases ns with
  | nil => simp [allTokens]
  | cons n ns =>
      rw [allComparisons] at h
      obtain ⟨hFirst, hRest⟩ := h.append
      rw [allTokens]
      exact List.forall_mem_cons.mpr ⟨forall_tokens n hFirst _, forall_allTokens ns hRest _⟩

end

/-- **Comparisons that can be read back are written in tokens that can be read.** -/
theorem Readable.covers {cs : List Comparison} (h : Readable cs) :
    Sql.Covers (fun t => t.plain = true) cs where
  opening := rfl
  closing := rfl
  comma := rfl
  connector c := by cases c <;> decide
  placeholder := Clause.placeholder_plain
  column c hc := (h c hc).1.column
  operator c hc := by
    have ho := (h c hc).2
    cases hop : c.operator with
    | other => rw [hop] at ho; cases ho
    | _ => decide

end NormalForm

/-! ### Clauses -/

namespace Clause

variable {p q : Predicate} {c d : Clause}

/-- The clause of a normal form. -/
def ofNorm : Option NormalForm → Clause
  | none => nothing
  | some n => ⟨.word "WHERE" :: n.tokens 1, NameMap.ofList (bound 1 n.values)⟩

/-- **A filter is compiled to the clause of its normal form**, if all its comparisons fit. -/
theorem ofPredicate_eq_ok (h : ofPredicate (some p) = .ok c) :
    (∀ x ∈ p.comparisons, x.Fits) ∧ c = ofNorm p.norm := by
  cases hf : p.fragment 1 with
  | error e => simp [ofPredicate, hf, bind, Except.bind] at h
  | ok f =>
      obtain ⟨hfits, rfl⟩ := Predicate.fragment_eq_ok hf
      have hok : ofPredicate (some p) = .ok (ofNorm p.norm) := by
        cases hn : p.norm with
        | none => simp [ofPredicate, hf, hn, bind, Except.bind, Predicate.piece, ofNorm]
        | some n =>
            simp [ofPredicate, hf, hn, bind, Except.bind, Predicate.piece, ofNorm, n.tokens_ne_nil]
      rw [hok] at h
      exact ⟨hfits, (Except.ok.inj h).symm⟩

/-- **A clause is written in tokens that can be read.** -/
theorem ofNorm_plain {n : Option NormalForm}
    (hr : NormalForm.Readable (NormalForm.allComparisons n.toList)) :
    ∀ t ∈ (ofNorm n).tokens, t.plain := by
  cases n with
  | none => simp [ofNorm, nothing]
  | some n =>
      have hr' : NormalForm.Readable n.comparisons := by
        simpa [NormalForm.allComparisons] using hr
      exact List.forall_mem_cons.mpr ⟨by decide, n.forall_tokens hr'.covers 1⟩

/-- **The text of a clause is read as its tokens.** -/
theorem lex_ofNorm {n : Option NormalForm}
    (hr : NormalForm.Readable (NormalForm.allComparisons n.toList)) :
    Sql.lex (ofNorm n).text.toList = some (ofNorm n).tokens :=
  Sql.lex_textOf_of_plain (ofNorm_plain hr)

/-- **The condition of a clause is read** up to what follows it, unless that looks like a clause. -/
theorem exists_readWhere? {n : Option NormalForm} {b : Bindings} (rest : List Token)
    (hr : NormalForm.Readable (NormalForm.allComparisons n.toList))
    (hb : Binds b 1 (NormalForm.allValues n.toList)) (hrest : rest.head? ≠ some (.word "WHERE")) :
    ∃ c, Sql.readWhere? ((ofNorm n).tokens ++ rest) = some (c, rest) ∧
      c.mapM (Sql.Condition.denote? b) = some n := by
  cases n with
  | none =>
      refine ⟨none, ?_, rfl⟩
      change Sql.readWhere? rest = some (none, rest)
      unfold Sql.readWhere?
      split
      · exact absurd rfl hrest
      · rfl
  | some n =>
      have hr' : NormalForm.Readable n.comparisons := by
        simpa [NormalForm.allComparisons] using hr
      have hb' : Binds b 1 n.values := by rwa [NormalForm.values_def]
      have hlen : (n.tokens 1).length ≤ (n.tokens 1 ++ rest).length + 1 := by
        rw [List.length_append]
        omega
      obtain ⟨c, hread, hdenote⟩ := n.exists_readCondition? hr' hb' hlen
      refine ⟨some c, ?_, by simp [hdenote]⟩
      rw [ofNorm, List.cons_append, Sql.readWhere?, hread rest]
      rfl

/-- What the clause of a normal form binds. -/
theorem bindings_ofNorm (n : Option NormalForm) :
    (ofNorm n).bindings = NameMap.ofList (bound 1 (NormalForm.allValues n.toList)) := by
  cases n with
  | none => rfl
  | some n => rw [Option.toList_some, ← NormalForm.values_def, ofNorm]

/-- The clause of a normal form binds its values from one on. -/
theorem binds_ofNorm (n : Option NormalForm) :
    Binds (ofNorm n).bindings 1 (NormalForm.allValues n.toList) := by
  rw [bindings_ofNorm]
  exact binds_bound 1 _

/-- **The clause of a normal form is read back.** -/
theorem read?_ofNorm {n : Option NormalForm}
    (hr : NormalForm.Readable (NormalForm.allComparisons n.toList)) :
    read? (ofNorm n).text (ofNorm n).bindings = some n := by
  obtain ⟨c, hread, hdenote⟩ := exists_readWhere? [] hr (binds_ofNorm n) (by simp)
  rw [List.append_nil] at hread
  rw [read?, lex_ofNorm hr, Option.bind_some, hread]
  cases c with
  | none => simpa using hdenote
  | some c => simpa using hdenote

/-- **A clause denotes the normal form of its filter**, whatever its columns are called: the normal
form is read off its text and its bindings, and two filters have the same clause exactly if they
have the same normal form. -/
theorem clause_denotes (hp : p.BuiltIn) (hq : q.BuiltIn) (hc : ofPredicate (some p) = .ok c)
    (hd : ofPredicate (some q) = .ok d) :
    read? c.text c.bindings = some p.norm ∧ read? d.text d.bindings = some q.norm ∧
      (c.text = d.text ∧ c.bindings = d.bindings ↔ p.norm = q.norm) := by
  have hread : ∀ {p : Predicate} {c : Clause}, p.BuiltIn → ofPredicate (some p) = .ok c →
      read? c.text c.bindings = some p.norm := by
    intro p c hp hc
    obtain ⟨hfits, rfl⟩ := ofPredicate_eq_ok hc
    refine read?_ofNorm fun x hx => ?_
    rw [Predicate.comparisons_norm] at hx
    exact ⟨hfits x hx, hp x hx⟩
  refine ⟨hread hp hc, hread hq hd, fun h => ?_, fun h => ?_⟩
  · have hsame := hread hp hc
    rw [h.1, h.2, hread hq hd] at hsame
    exact (Option.some.inj hsame).symm
  · rw [(ofPredicate_eq_ok hc).2, (ofPredicate_eq_ok hd).2, h]
    exact ⟨rfl, rfl⟩

/-- A filter with groups that compare nothing, an empty list and columns that are called like
keywords, and the same filter without those groups and with another connector where one child is
left. -/
theorem clause_denotes_keywords :
    ∃ c d, ofPredicate (some (.group .and [.group .or [], .comparison "IN" .isIn (.list []),
          .group .or [.comparison "NOT" .notIn (.list [.null, .boolean true]), .group .and []],
          .comparison "AND" .eq (.scalar (.text "OR"))])) = .ok c ∧
      ofPredicate (some (.group .and [.comparison "IN" .isIn (.list []),
          .group .and [.comparison "NOT" .notIn (.list [.null, .boolean true])],
          .comparison "AND" .eq (.scalar (.text "OR"))])) = .ok d ∧
      c.text = "WHERE (IN IN () AND (NOT NOT IN (@whr1, @whr2)) AND AND = @whr3)" ∧
      read? c.text c.bindings = some (some (.joined .and (.comparison ⟨"IN", .isIn, .list []⟩)
        (.single (.comparison ⟨"NOT", .notIn, .list [.null, .boolean true]⟩))
        [.comparison ⟨"AND", .eq, .scalar (.text "OR")⟩])) ∧
      c.text = d.text ∧ c.bindings = d.bindings := by
  refine ⟨_, _, rfl, rfl, by decide +kernel, ?_⟩
  obtain ⟨hread, -, hiff⟩ := clause_denotes
    (p := .group .and [.group .or [], .comparison "IN" .isIn (.list []),
      .group .or [.comparison "NOT" .notIn (.list [.null, .boolean true]), .group .and []],
      .comparison "AND" .eq (.scalar (.text "OR"))])
    (q := .group .and [.comparison "IN" .isIn (.list []),
      .group .and [.comparison "NOT" .notIn (.list [.null, .boolean true])],
      .comparison "AND" .eq (.scalar (.text "OR"))])
    (by unfold Predicate.BuiltIn; decide) (by unfold Predicate.BuiltIn; decide) rfl rfl
  exact ⟨hread, hiff.mpr rfl⟩

end Clause

end ScopedSql
