import ScopedSql.Predicate.Shorthand
import ScopedSql.Proofs.Predicate.Operators
import ScopedSql.Proofs.Value.Documents

/-!
# The canonical document of a filter

Every filter that the shorthand can give has one document of its own, `Predicate.canonical`: a list for a
comparison and an object with one member for a group. It is read back without a notice
(`Shorthand.read_canonical`). Which filters these are is said by `Predicate.Expressible`: their operators
are read from their own texts, and documents can give their values. That the shorthand gives no
others is shown for each function of the reader as a law of the form `Reading.Yields`.
`Shorthand.canonical_exact` puts the two directions together.
-/

namespace ScopedSql

open Json (Document)

/-! ### Expressible filters -/

namespace Operand

/-- **An operand that documents can give**: all its values are. -/
def Expressible (o : Operand) : Prop := ∀ v ∈ o.values, v.Expressible

/-- The document of an operand. -/
def document : Operand → Document
  | .scalar v => v.document
  | .list values => .array (values.map Value.document)

end Operand

namespace Predicate

/-- **A filter that documents can give**: every operator in it is read from its own text, and every
operand is expressible. -/
inductive Expressible : Predicate → Prop
  /-- A comparison. -/
  | comparison {column : String} {operator : Operator} {operand : Operand}
      (hoperator : .parse operator.sql = operator) (hoperand : operand.Expressible) :
      Expressible (.comparison column operator operand)
  /-- A group. -/
  | group {connector : Connector} {children : List Predicate}
      (hchildren : ∀ p ∈ children, Expressible p) : Expressible (.group connector children)

mutual

/-- **The canonical document of a filter**: a list of column, operator and operand for a comparison, an
object with the connector as its one key for a group. -/
def canonical : Predicate → Document
  | .comparison column operator operand =>
      .array [.text column, .text operator.sql, operand.document]
  | .group connector children => .object [(connector.sql, .array (canonicalAll children))]
termination_by structural p => p

/-- The canonical documents of some filters. -/
def canonicalAll : List Predicate → List Document
  | [] => []
  | p :: rest => p.canonical :: canonicalAll rest
termination_by structural ps => ps

end

end Predicate

/-! ### Reading canonical documents -/

namespace Shorthand

/-- Values that can be written as documents are read back from them. -/
theorem scalars_document {values : List Value} (h : ∀ v ∈ values, v.Expressible) :
    scalars (values.map Value.document) = .ok values := by
  induction values with
  | nil => rfl
  | cons v rest ih =>
      rw [List.forall_mem_cons] at h
      rw [List.map_cons, scalars, Value.ofDocument_document h.1, ih h.2]
      rfl

/-- **An expressible operand is read from its document.** -/
theorem operand_document {o : Operand} (h : o.Expressible) : operand o.document = .ok o := by
  cases o with
  | scalar v =>
      -- a value never has a list for its document
      have hscalar : operand v.document = (Value.ofDocument v.document).map .scalar := by
        cases v <;> rfl
      rw [Operand.document, hscalar, Value.ofDocument_document (h v (by simp [Operand.values]))]
      rfl
  | list values =>
      have hvalues : scalars (values.map Value.document) = .ok values := scalars_document h
      rw [Operand.document, operand, hvalues]
      rfl

/-- An object with the connector of a group as its one key is this group, and nothing of it is ignored. -/
theorem read_group (connector : Connector) (d : Document) :
    read (.object [(connector.sql, d)]) =
      (readGroup connector d).bind fun p => Reading.pure (some p) := by
  cases connector <;> rfl

mutual

/-- **An expressible filter is read from its canonical document**, without a notice. -/
theorem read_canonical {p : Predicate} (h : p.Expressible) :
    read p.canonical = Reading.pure (some p) := by
  cases h with
  | comparison hoperator hoperand =>
      rw [Predicate.canonical, read, triple, operand_document hoperand, hoperator]
      rfl
  | group hchildren =>
      rw [Predicate.canonical, read_group, readGroup, readAll_canonical hchildren]
      rfl

/-- Expressible filters are read from the list of their canonical documents. -/
theorem readAll_canonical {ps : List Predicate} (h : ∀ p ∈ ps, p.Expressible) :
    readAll (Predicate.canonicalAll ps) = Reading.pure ps := by
  cases ps with
  | nil => rfl
  | cons p rest =>
      rw [List.forall_mem_cons] at h
      rw [Predicate.canonicalAll, readAll, read_canonical h.1, readAll_canonical h.2]
      rfl

end

end Shorthand

/-! ### Canonical documents are finite -/

/-- An operand is written without a double that is no number. -/
theorem Operand.isFinite_document {o : Operand} (h : o.Expressible) : o.document.isFinite := by
  cases o with
  | scalar v => exact Value.isFinite_document (h v (by simp [values]))
  | list values =>
      rw [document, Document.isFinite_array, List.forall_mem_map]
      exact fun v hv => Value.isFinite_document (h v hv)

namespace Predicate

mutual

/-- **A filter is written without a double that is no number.** -/
theorem isFinite_canonical {p : Predicate} (h : p.Expressible) : p.canonical.isFinite := by
  cases h with
  | comparison hoperator hoperand =>
      have hdocument := Operand.isFinite_document hoperand
      simp [canonical, Document.isFinite, Document.allFinite, hdocument]
  | group hchildren =>
      have hall := isFinite_canonicalAll hchildren
      simp [canonical, Document.isFinite, Document.membersFinite, hall]

/-- Filters are written without a double that is no number. -/
theorem isFinite_canonicalAll {ps : List Predicate} (h : ∀ p ∈ ps, p.Expressible) :
    Document.allFinite (canonicalAll ps) := by
  cases ps with
  | nil => rfl
  | cons p rest =>
      rw [List.forall_mem_cons] at h
      rw [canonicalAll, Document.allFinite, isFinite_canonical h.1, isFinite_canonicalAll h.2]
      rfl

end

end Predicate

/-! ### What a reading yields -/

/-- **A reading yields** only results with a certain property, if it has one at all. -/
def Reading.Yields {α : Type} (r : Reading α) (P : α → Prop) : Prop := ∀ a, r.outcome = .ok a → P a

namespace Reading

variable {α β : Type} {P : α → Prop} {Q : β → Prop}

/-- A reading of a thing yields that thing. -/
theorem yields_pure {a : α} (h : P a) : (pure a).Yields P := by
  rintro _ ⟨⟩
  exact h

/-- A reading that fails yields nothing. -/
theorem yields_fail (fault : PredicateFault) : (fail fault : Reading α).Yields P := nofun

/-- Notices change nothing of what a reading yields. -/
theorem Yields.after {r : Reading α} (h : r.Yields P) (ns : List Notice) :
    (Reading.after ns r).Yields P :=
  h

/-- Two readings one after the other: the second one yields it of whatever the first one yields. -/
theorem Yields.bind {r : Reading α} {f : α → Reading β} (h : r.Yields P)
    (hf : ∀ a, P a → (f a).Yields Q) : (r.bind f).Yields Q := by
  intro b hb
  cases hr : r.outcome with
  | error e => simp [Reading.bind, hr] at hb
  | ok a =>
      rw [Reading.bind, hr] at hb
      exact hf a (h a hr) b hb

/-- A result that is wrapped up has the property of what is wrapped. -/
theorem Yields.map {r : Reading α} (h : r.Yields P) {f : α → β} (hf : ∀ a, P a → Q (f a)) :
    (r.bind fun a => pure (f a)).Yields Q :=
  h.bind fun a ha => yields_pure (hf a ha)

end Reading

namespace Shorthand

/-- Scalars that are read can be written again. -/
theorem expressible_of_scalars {items : List Document} {values : List Value}
    (hitems : ∀ d ∈ items, d.isFinite) (h : scalars items = .ok values) :
    ∀ v ∈ values, v.Expressible := by
  induction items generalizing values with
  | nil =>
      cases h
      exact nofun
  | cons d rest ih =>
      rw [List.forall_mem_cons] at hitems
      obtain ⟨v, hd, h⟩ := bind_eq_ok_iff.mp h
      obtain ⟨vs, hrest, h⟩ := bind_eq_ok_iff.mp h
      cases h
      exact List.forall_mem_cons.mpr
        ⟨Value.expressible_of_ofDocument hitems.1 hd, ih hitems.2 hrest⟩

/-- **An operand of a finite document is expressible.** -/
theorem expressible_of_operand {d : Document} {o : Operand} (hd : d.isFinite)
    (h : operand d = .ok o) : o.Expressible := by
  unfold operand at h
  split at h
  · obtain ⟨values, hs, rfl⟩ := map_eq_ok_iff.mp h
    exact expressible_of_scalars (Document.isFinite_array.mp hd) hs
  · obtain ⟨v, hv, rfl⟩ := map_eq_ok_iff.mp h
    exact List.forall_mem_singleton.mpr (Value.expressible_of_ofDocument hd hv)

/-- A comparison is expressible if its operator was read and its operand is read from a finite
document. -/
theorem yields_comparison (column : String) {operator : Operator} {d : Document}
    (hoperator : .parse operator.sql = operator) (hd : d.isFinite) :
    (Reading.lift ((operand d).map (.comparison column operator))).Yields
      Predicate.Expressible := by
  intro p hp
  obtain ⟨o, ho, rfl⟩ := map_eq_ok_iff.mp hp
  exact .comparison hoperator (expressible_of_operand hd ho)

/-- A triple yields a filter that can be written. -/
theorem yields_triple {items : List Document} (h : (Document.array items).isFinite) :
    (triple items).Yields Predicate.Expressible := by
  refine Reading.Yields.after ?_ _
  split
  case h_1 column operator value more =>
    have hvalue : value.isFinite := Document.isFinite_array.mp h value (by simp)
    split
    · split
      · exact yields_comparison _ (Operator.parse_sql_parse _) hvalue
      · exact Reading.yields_fail _
    · exact Reading.yields_fail _
  case h_2 => exact Reading.yields_fail _

/-- The operator of a condition is equality or read from a text. -/
theorem parse_sql_conditionOperator {column : String} {members : List (String × Document)}
    {operator : Operator} (h : conditionOperator column members = .ok operator) :
    .parse operator.sql = operator := by
  unfold conditionOperator at h
  split at h
  · cases h
    exact @Operator.parse_sql_of_builtIn? .eq "=" rfl
  · cases h
    exact Operator.parse_sql_parse _
  · nomatch h

/-- The operand of a condition is the absent value or read from a member. -/
theorem expressible_of_conditionOperand {members : List (String × Document)} {o : Operand}
    (hmembers : (Document.object members).isFinite) (h : conditionOperand members = .ok o) :
    o.Expressible := by
  unfold conditionOperand at h
  split at h
  · cases h
    exact List.forall_mem_singleton.mpr trivial
  case h_2 d hd => exact expressible_of_operand (Document.isFinite_of_member? hmembers hd) h

/-- A condition yields a filter that can be written. -/
theorem yields_condition (column : String) {members : List (String × Document)}
    (h : (Document.object members).isFinite) :
    (condition column members).Yields Predicate.Expressible := by
  unfold condition
  split
  · exact Reading.yields_fail _
  · refine Reading.Yields.after ?_ _
    intro p hp
    obtain ⟨operator, hoperator, hp⟩ := bind_eq_ok_iff.mp hp
    obtain ⟨o, hoperand, hp⟩ := bind_eq_ok_iff.mp hp
    cases hp
    exact .comparison (parse_sql_conditionOperator hoperator)
      (expressible_of_conditionOperand h hoperand)

/-- What is said of a column yields a filter that can be written. -/
theorem yields_onColumn (column : String) {d : Document} (h : d.isFinite) :
    (onColumn column d).Yields Predicate.Expressible := by
  cases d with
  | object members => exact yields_condition column h
  | _ => exact yields_comparison column (@Operator.parse_sql_of_builtIn? .eq "=" rfl) h

/-- The shorthand of a column yields a filter that can be written. -/
theorem yields_shorthandColumn {members : List (String × Document)}
    (h : (Document.object members).isFinite) :
    (shorthandColumn members).Yields Predicate.Expressible := by
  refine Reading.Yields.after ?_ _
  match members with
  | [] => exact Reading.yields_fail _
  | (column, d) :: more =>
      exact yields_onColumn column (Document.isFinite_object.mp h (column, d) (by simp))

-- One law for each of the four functions of the reader, by induction on the document.
mutual

/-- **What is read from a finite document is expressible.** -/
theorem yields_read {d : Document} (h : d.isFinite) :
    (read d).Yields fun p => ∀ q ∈ p, q.Expressible := by
  have hsome : ∀ p : Predicate, p.Expressible → ∀ q ∈ some p, q.Expressible := by
    rintro p hp _ ⟨⟩
    exact hp
  match d with
  | .null => exact Reading.yields_pure nofun
  | .bool b => exact Reading.yields_fail _
  | .number n => exact Reading.yields_fail _
  | .text s => exact Reading.yields_fail _
  | .array items => exact (yields_triple h).map hsome
  | .object [] => exact Reading.yields_pure nofun
  | .object (m :: rest) =>
      rw [read]
      split
      · exact ((yields_readMember _ (Document.isFinite_object.mp h)).map hsome).after _
      · exact (yields_shorthandColumn h).map hsome

/-- The member of a group yields a filter that can be written. -/
theorem yields_readMember (connector : Connector) {members : List (String × Document)}
    (h : ∀ m ∈ members, m.2.isFinite) :
    (readMember connector members).Yields Predicate.Expressible := by
  match members with
  | [] => exact Reading.yields_fail _
  | (key, d) :: rest =>
      rw [List.forall_mem_cons] at h
      rw [readMember]
      split
      · exact yields_readGroup connector h.1
      · exact yields_readMember connector h.2

/-- A group yields a filter that can be written. -/
theorem yields_readGroup (connector : Connector) {d : Document} (h : d.isFinite) :
    (readGroup connector d).Yields Predicate.Expressible := by
  match d with
  | .array items =>
      exact (yields_readAll (Document.isFinite_array.mp h)).map fun ps hps => .group hps
  | .null => exact Reading.yields_fail _
  | .bool b => exact Reading.yields_fail _
  | .number n => exact Reading.yields_fail _
  | .text s => exact Reading.yields_fail _
  | .object members => exact Reading.yields_fail _

/-- A list of documents yields filters that can be written. -/
theorem yields_readAll {items : List Document} (h : ∀ d ∈ items, d.isFinite) :
    (readAll items).Yields fun ps => ∀ p ∈ ps, p.Expressible := by
  match items with
  | [] => exact Reading.yields_pure nofun
  | d :: rest =>
      rw [List.forall_mem_cons] at h
      rw [readAll]
      refine (yields_read h.1).bind fun p hp => (yields_readAll h.2).map fun ps hps q hq => ?_
      rcases List.mem_append.mp hq with hq | hq
      · exact hp q (Option.mem_toList.mp hq)
      · exact hps q hq

end

/-! ### The shorthand and the filters agree -/

/-- **The shorthand gives the expressible filters and no others, and nothing is lost on the way.** An
expressible filter is read from its canonical document without a notice. What is read from a
document whose doubles are finite is expressible, so it is read again from its own canonical
document. And the expressible filters are those that such documents give. -/
theorem canonical_exact (p : Predicate) :
    (p.Expressible → (read p.canonical).outcome = .ok (some p) ∧ (read p.canonical).notices = []) ∧
      (∀ d : Document, d.isFinite → (read d).outcome = .ok (some p) →
        p.Expressible ∧ (read p.canonical).outcome = .ok (some p)) ∧
      (p.Expressible ↔ ∃ d : Document, d.isFinite ∧ (read d).outcome = .ok (some p)) := by
  have hback : p.Expressible →
      (read p.canonical).outcome = .ok (some p) ∧ (read p.canonical).notices = [] := by
    intro hp
    rw [read_canonical hp]
    exact ⟨rfl, rfl⟩
  have hforth : ∀ d : Document, d.isFinite → (read d).outcome = .ok (some p) → p.Expressible :=
    fun d hd hread => yields_read hd _ hread p rfl
  refine ⟨hback, fun d hd hread => ?_, fun hp => ?_, fun ⟨d, hd, hread⟩ => hforth d hd hread⟩
  · have hp := hforth d hd hread
    exact ⟨hp, (hback hp).1⟩
  · exact ⟨p.canonical, p.isFinite_canonical hp, (hback hp).1⟩

/-- A group with blanks around an operator, an operator that only the engine knows, the greatest
unsigned word, a column named like a connector, and a part that filters nothing. -/
theorem canonical_exact_mixed :
    let p := Predicate.group .or
      [.comparison "a" .notIn (.list [.integer 1, .real ⟨0x43F0000000000000⟩]),
        .comparison "AND" (.other "is not") (.scalar .null), .group .and []]
    p.Expressible ∧ (read p.canonical).outcome = .ok (some p) ∧ (read p.canonical).notices = [] :=
  let d := Document.object
    [("OR", .array
      [.array [.text "a", .text " Not\n  iN ", .array [.ofNat 1, .ofNat 18446744073709551615]],
        .array [.text "AND", .text "\tis not ", .null], .object [], .object [("AND", .array [])]])]
  have hp := ((canonical_exact _).2.1 d (by decide +kernel) (by with_unfolding_all rfl)).1
  ⟨hp, (canonical_exact _).1 hp⟩

end Shorthand

end ScopedSql
