import ScopedSql.Predicate.Shorthand

/-!
# The grammar of the shorthand

Which documents are filters is said here without reading them (`Shorthand.Valid`), and so is what of a
valid document is ignored: `Shorthand.visited` lists the lists and objects that the reader comes to,
each before what it contains, and `Node.notices` says what it ignores at one of them.
`Shorthand.grammar_exact` shows that the reader agrees: it accepts the valid documents and no
others, and it gives the notices of the visited nodes in their order, which are none exactly if every
node is exact (`Node.Exact`).

Each function of the reader is described by one law of the form `Reading.Gives`: when it has a result,
and with which notices. The laws follow the functions part by part.
-/

namespace ScopedSql

open Json (Document)

/-! ### What a reading gives -/

/-- **A reading gives** a result exactly under a condition, and then with certain notices. -/
structure Reading.Gives {α : Type} (r : Reading α) (accepted : Prop) (notices : List Notice) :
    Prop where
  /-- When it has a result. -/
  outcome : (∃ a, r.outcome = .ok a) ↔ accepted
  /-- The notices with the result. -/
  notices : accepted → r.notices = notices

namespace Reading

variable {α β : Type} {p q : Prop} {ns ms : List Notice}

/-- What a reading accepts and notices can be said in other words. -/
theorem Gives.congr {r : Reading α} (h : r.Gives p ns) (hp : p ↔ q) (hns : q → ns = ms) :
    r.Gives q ms :=
  ⟨h.outcome.trans hp, fun hq => (h.notices (hp.mpr hq)).trans (hns hq)⟩

/-- A reading of a thing accepts, without a notice. -/
theorem gives_pure (a : α) : (pure a).Gives True [] :=
  ⟨iff_true_intro ⟨a, rfl⟩, fun _ => rfl⟩

/-- A reading that fails accepts nothing. -/
theorem gives_fail (fault : PredicateFault) (hp : ¬ p) : (fail fault : Reading α).Gives p ns :=
  ⟨⟨fun ⟨_, h⟩ => (nomatch h), fun h => absurd h hp⟩, fun h => absurd h hp⟩

/-- A result that is lifted accepts if it is a success, without a notice. -/
theorem gives_lift {r : Except Fault α} (h : (∃ a, r = .ok a) ↔ p) : (lift r).Gives p [] :=
  ⟨h, fun _ => rfl⟩

/-- Notices in front come first. -/
theorem Gives.after {r : Reading α} (h : r.Gives p ms) (ns : List Notice) :
    (Reading.after ns r).Gives p (ns ++ ms) :=
  ⟨h.outcome, fun hp => by rw [← h.notices hp]; rfl⟩

/-- **Two readings one after the other**: both have to accept, and the notices of the first come
first. -/
theorem Gives.bind {r : Reading α} {f : α → Reading β} (h : r.Gives p ns)
    (hf : ∀ a, (f a).Gives q ms) : (r.bind f).Gives (p ∧ q) (ns ++ ms) := by
  cases hr : r.outcome with
  | error e =>
      -- the notices before a fault are kept, but no one asks for them
      have hp : ¬ p := fun hp => by
        obtain ⟨a, ha⟩ := h.outcome.mpr hp
        simp [hr] at ha
      have hbind : r.bind f = ⟨r.notices, .error e⟩ := by rw [Reading.bind, hr]
      rw [hbind]
      exact ⟨⟨fun ⟨_, ha⟩ => (nomatch ha), fun hpq => absurd hpq.1 hp⟩, fun hpq => absurd hpq.1 hp⟩
  | ok a =>
      have hp : p := h.outcome.mp ⟨a, hr⟩
      have hbind : r.bind f = ⟨r.notices ++ (f a).notices, (f a).outcome⟩ := by
        rw [Reading.bind, hr]
      rw [hbind]
      exact ⟨(hf a).outcome.trans (and_iff_right hp).symm,
        fun hpq => by rw [h.notices hp, (hf a).notices hpq.2]⟩

/-- What is done with a result afterwards does not matter. -/
theorem Gives.map {r : Reading α} (h : r.Gives p ns) (f : α → β) :
    (r.bind fun a => pure (f a)).Gives p ns :=
  (h.bind fun a => gives_pure (f a)).congr (and_iff_left trivial) fun _ => List.append_nil ns

end Reading

namespace Shorthand

/-! ### The grammar -/

/-- **A scalar**: neither a list nor an object. -/
def IsScalar : Document → Prop
  | .array _ => False
  | .object _ => False
  | _ => True

/-- **An operand**: a scalar or a list of scalars. -/
def IsOperand : Document → Prop
  | .array items => ∀ d ∈ items, IsScalar d
  | d => IsScalar d

/-- **A condition**: an operator or a value is given, the one a text and the other an operand. -/
structure IsCondition (members : List (String × Document)) : Prop where
  /-- One of them is given. -/
  given : "operator" ∈ Document.keys members ∨ "value" ∈ Document.keys members
  /-- The operator is a text. -/
  operator : ∀ d, Document.member? "operator" members = some d → ∃ s, d = .text s
  /-- The value is an operand. -/
  value : ∀ d, Document.member? "value" members = some d → IsOperand d

/-- **An object is a group** under `AND` if it has this key, else under `OR` if it has that one. -/
def IsGroup (members : List (String × Document)) : Connector → Prop
  | .and => "AND" ∈ Document.keys members
  | .or => "AND" ∉ Document.keys members ∧ "OR" ∈ Document.keys members

/-- A group has a member for its connector. -/
theorem IsGroup.mem_keys {members : List (String × Document)} {connector : Connector}
    (h : IsGroup members connector) : connector.sql ∈ Document.keys members := by
  cases connector with
  | and => exact h
  | or => exact h.2

/-- **The documents that are filters.** -/
inductive Valid : Document → Prop
  /-- Nothing filters nothing. -/
  | null : Valid .null
  /-- Nor does an object without members. -/
  | empty : Valid (.object [])
  /-- A column, an operator and an operand, and whatever follows. -/
  | triple (column operator : String) {value : Document} (more : List Document)
      (hvalue : IsOperand value) :
      Valid (.array (.text column :: .text operator :: value :: more))
  /-- A group of filters. -/
  | group {members : List (String × Document)} {connector : Connector} {items : List Document}
      (hgroup : IsGroup members connector)
      (hitems : Document.member? connector.sql members = some (.array items))
      (hvalid : ∀ d ∈ items, Valid d) : Valid (.object members)
  /-- A column with an operand, and whatever follows. -/
  | column {column : String} {value : Document} {more : List (String × Document)}
      (hgroup : ∀ connector, ¬ IsGroup ((column, value) :: more) connector)
      (hvalue : IsOperand value) : Valid (.object ((column, value) :: more))
  /-- A column with a condition, and whatever follows. -/
  | condition {column : String} {members more : List (String × Document)}
      (hgroup : ∀ connector, ¬ IsGroup ((column, .object members) :: more) connector)
      (hcondition : IsCondition members) : Valid (.object ((column, .object members) :: more))

/-! ### What is visited -/

/-- **What the reader comes to.** -/
inductive Node where
  /-- A list filter. -/
  | list (items : List Document)
  /-- A group. -/
  | group (members : List (String × Document)) (connector : Connector)
      (hgroup : IsGroup members connector)
  /-- An object that is no group, with the members after its first. -/
  | column (column : String) (value : Document) (more : List (String × Document))
  /-- A condition on a column. -/
  | condition (column : String) (members : List (String × Document))

namespace Node

/-- **Nothing of a node is ignored**: a list has three entries, a group no key but its own, a column
object no second member, and a condition no key of another name. -/
def Exact : Node → Prop
  | .list items => items.length = 3
  | .group members connector _ => ∀ key ∈ Document.keys members, key = connector.sql
  | .column _ _ more => more = []
  | .condition _ members => ∀ key ∈ Document.keys members, key = "operator" ∨ key = "value"

/-- The keys of an object beside two known ones. -/
def otherKeys (a b : String) (members : List (String × Document)) : List String :=
  (Document.keys members).filter fun key => key != a && key != b

/-- There are no other keys exactly if all keys are among the two. -/
theorem otherKeys_eq_nil_iff {a b : String} {members : List (String × Document)} :
    otherKeys a b members = [] ↔ ∀ key ∈ Document.keys members, key = a ∨ key = b := by
  simp [otherKeys, Decidable.or_iff_not_imp_left]

/-- **The notices at a node**: what of it is ignored. -/
def notices : Node → List Notice
  | .list items => if items.length = 3 then [] else [.listLength items.length]
  | .group members _ _ =>
      (if "AND" ∈ Document.keys members ∧ "OR" ∈ Document.keys members then [.bothGroups] else []) ++
        if otherKeys "AND" "OR" members = [] then []
        else [.ignoredKeys (otherKeys "AND" "OR" members)]
  | .column _ _ more => if more = [] then [] else [.extraColumns (more.length + 1)]
  | .condition name members =>
      if otherKeys "operator" "value" members = [] then []
      else [.unknownKeys name (otherKeys "operator" "value" members)]

end Node

/-- An object has a member exactly if it has its key. -/
theorem isSome_member?_iff {key : String} {members : List (String × Document)} :
    (Document.member? key members).isSome ↔ key ∈ Document.keys members := by
  simp [Document.member?, Document.keys]

/-- The connector that is found is that of the group. -/
theorem groupOf?_eq_some_iff {members : List (String × Document)} {connector : Connector} :
    groupOf? members = some connector ↔ IsGroup members connector := by
  simp only [groupOf?, isSome_member?_iff]
  cases connector <;> by_cases hand : "AND" ∈ Document.keys members <;> simp [IsGroup, hand]

/-- None is found exactly if the object is no group. -/
theorem groupOf?_eq_none_iff {members : List (String × Document)} :
    groupOf? members = none ↔ ∀ connector, ¬ IsGroup members connector := by
  rw [Option.eq_none_iff_forall_ne_some]
  exact forall_congr' fun connector => not_congr groupOf?_eq_some_iff

/-- The node under a column, if a condition stands there. -/
def visitedValue (column : String) : Document → List Node
  | .object members => [.condition column members]
  | _ => []

mutual

/-- **The nodes that the reader of a filter comes to**, each before what it contains. -/
def visited : Document → List Node
  | .array items => [.list items]
  | .object ((column, value) :: more) =>
      match h : groupOf? ((column, value) :: more) with
      | some connector =>
          .group ((column, value) :: more) connector (groupOf?_eq_some_iff.mp h) ::
            visitedMember connector ((column, value) :: more)
      | none =>
          .column column value more :: visitedValue column value
  | _ => []
termination_by structural d => d

/-- The nodes under the key of a connector. -/
def visitedMember (connector : Connector) : List (String × Document) → List Node
  | [] => []
  | (key, d) :: rest =>
      if key = connector.sql then visitedGroup d else visitedMember connector rest
termination_by structural ms => ms

/-- The nodes of a group. -/
def visitedGroup : Document → List Node
  | .array items => visitedAll items
  | _ => []
termination_by structural d => d

/-- The nodes of some filters, one after the other. -/
def visitedAll : List Document → List Node
  | [] => []
  | d :: rest => visited d ++ visitedAll rest
termination_by structural ds => ds

end

section Objects

variable {column : String} {value : Document} {more : List (String × Document)}

/-- What is visited in a group: the group, and then what is in it. -/
theorem visited_group {connector : Connector} (h : IsGroup ((column, value) :: more) connector) :
    visited (.object ((column, value) :: more)) =
      .group ((column, value) :: more) connector h ::
        visitedMember connector ((column, value) :: more) := by
  have hg := groupOf?_eq_some_iff.mpr h
  rw [visited]
  split
  case h_1 connector' hc =>
    obtain rfl := Option.some.inj (hg.symm.trans hc)
    rfl
  case h_2 hc => simp [hg] at hc

/-- What is visited in a column: the column, and then its value. -/
theorem visited_column (h : ∀ connector, ¬ IsGroup ((column, value) :: more) connector) :
    visited (.object ((column, value) :: more)) =
      .column column value more :: visitedValue column value := by
  have hg := groupOf?_eq_none_iff.mpr h
  rw [visited]
  split
  case h_1 connector hc => simp [hg] at hc
  case h_2 => rfl

end Objects

/-! ### Each function of the reader -/

section Outcomes

variable {α β : Type} {q : Prop} {r : Except Fault α}

/-- A mapped result is a success exactly if the result is. -/
theorem exists_map_iff {f : α → β} : (∃ b, r.map f = .ok b) ↔ ∃ a, r = .ok a := by
  cases r <;> simp [Except.map]

/-- Two results one after the other are a success exactly if both are. -/
theorem exists_bind_iff {f : α → Except Fault β} (hf : ∀ a, (∃ b, f a = .ok b) ↔ q) :
    (∃ b, r >>= f = .ok b) ↔ (∃ a, r = .ok a) ∧ q := by
  cases r with
  | error e => simp [bind, Except.bind]
  | ok a => simpa [bind, Except.bind] using hf a

/-- A result with a last touch is a success exactly if the result is. -/
theorem exists_bind_ok_iff {f : α → β} :
    (∃ b, (r >>= fun a => Except.ok (f a)) = .ok b) ↔ ∃ a, r = .ok a :=
  (exists_bind_iff fun a => iff_true_intro ⟨f a, rfl⟩).trans (and_iff_left trivial)

end Outcomes

/-- A document is read as a value exactly if it is a scalar. -/
theorem exists_ofDocument_iff (d : Document) : (∃ v, Value.ofDocument d = .ok v) ↔ IsScalar d := by
  cases d <;> simp [Value.ofDocument, IsScalar]

/-- Documents are read as values exactly if all of them are scalars. -/
theorem exists_scalars_iff (items : List Document) :
    (∃ vs, scalars items = .ok vs) ↔ ∀ d ∈ items, IsScalar d := by
  induction items with
  | nil => simp [scalars]
  | cons d rest ih =>
      rw [List.forall_mem_cons, ← exists_ofDocument_iff, ← ih, scalars]
      exact exists_bind_iff fun v => exists_bind_ok_iff

/-- A document is read as an operand exactly if it is one. -/
theorem exists_operand_iff (d : Document) : (∃ o, operand d = .ok o) ↔ IsOperand d := by
  cases d with
  | array items => rw [operand, exists_map_iff, exists_scalars_iff, IsOperand]
  | _ => rw [operand, exists_map_iff, exists_ofDocument_iff, IsOperand] <;> simp

/-- **A list filter** is read if its first three entries are right, whatever follows. -/
theorem gives_triple (items : List Document) :
    (triple items).Gives (Valid (.array items)) (Node.list items).notices := by
  refine (Reading.Gives.after ?_ _).congr Iff.rfl fun _ => List.append_nil _
  match items with
  | [] => exact Reading.gives_fail _ nofun
  | [_] => exact Reading.gives_fail _ nofun
  | [_, _] => exact Reading.gives_fail _ nofun
  | column :: operator :: value :: more =>
      cases column with
      | text column =>
          cases operator with
          | text operator =>
              refine Reading.gives_lift (exists_map_iff.trans ((exists_operand_iff value).trans ?_))
              exact ⟨.triple column operator more, fun | .triple _ _ _ h => h⟩
          | _ => exact Reading.gives_fail _ nofun
      | _ => exact Reading.gives_fail _ nofun

/-- The operator of a condition is read exactly if it is a text or missing. -/
theorem exists_conditionOperator_iff (column : String) (members : List (String × Document)) :
    (∃ o, conditionOperator column members = .ok o) ↔
      ∀ d, Document.member? "operator" members = some d → ∃ s, d = .text s := by
  unfold conditionOperator
  cases Document.member? "operator" members with
  | none => simp
  | some d => cases d <;> simp

/-- The operand of a condition is read exactly if it is one or missing. -/
theorem exists_conditionOperand_iff (members : List (String × Document)) :
    (∃ o, conditionOperand members = .ok o) ↔
      ∀ d, Document.member? "value" members = some d → IsOperand d := by
  unfold conditionOperand
  cases Document.member? "value" members with
  | none => simp
  | some d => simp [exists_operand_iff]

/-- **A condition** is read if it is one, and only its unknown keys are told of. -/
theorem gives_condition (column : String) (members : List (String × Document)) :
    (condition column members).Gives (IsCondition members)
      (Node.condition column members).notices := by
  have hbare : ((Document.member? "operator" members).isNone &&
      (Document.member? "value" members).isNone) = true ↔
        ¬ ("operator" ∈ Document.keys members ∨ "value" ∈ Document.keys members) := by
    simp only [← isSome_member?_iff, Bool.and_eq_true, not_or, Bool.not_eq_true,
      Option.isSome_eq_false_iff]
  by_cases hgiven : "operator" ∈ Document.keys members ∨ "value" ∈ Document.keys members
  · rw [condition, if_neg fun h => hbare.mp h hgiven]
    refine ((Reading.gives_lift ?_).after _).congr (p := IsCondition members) Iff.rfl fun _ => ?_
    · refine (exists_bind_iff fun operator => exists_bind_ok_iff).trans ?_
      rw [exists_conditionOperator_iff, exists_conditionOperand_iff]
      exact ⟨fun h => ⟨hgiven, h.1, h.2⟩, fun h => ⟨h.operator, h.value⟩⟩
    · simp [Node.notices, unknownKeys, Node.otherKeys]
  · rw [condition, if_pos (hbare.mpr hgiven)]
    exact Reading.gives_fail _ fun h => hgiven h.given

/-- **What is said of a column** is accepted exactly if it is an operand or a condition. -/
theorem gives_onColumn (column : String) (d : Document) :
    (onColumn column d).Gives (IsOperand d ∨ ∃ members, d = .object members ∧ IsCondition members)
      ((visitedValue column d).flatMap Node.notices) := by
  cases d with
  | object members =>
      refine (gives_condition column members).congr ?_ fun _ => by simp [visitedValue]
      simp [IsOperand, IsScalar]
  | _ =>
      refine Reading.gives_lift (exists_map_iff.trans ((exists_operand_iff _).trans ?_))
      simp

/-- **An object that is no group** is read by its first member. -/
theorem gives_shorthandColumn {column : String} {value : Document}
    {more : List (String × Document)}
    (hgroup : ∀ connector, ¬ IsGroup ((column, value) :: more) connector) :
    (shorthandColumn ((column, value) :: more)).Gives (Valid (.object ((column, value) :: more)))
      ((Node.column column value more :: visitedValue column value).flatMap Node.notices) := by
  refine ((gives_onColumn column value).after _).congr ?_ fun _ => ?_
  · constructor
    · rintro (hvalue | ⟨members, rfl, hcondition⟩)
      · exact .column hgroup hvalue
      · exact .condition hgroup hcondition
    · intro h
      cases h with
      | group h => exact absurd h (hgroup _)
      | column _ hvalue => exact .inl hvalue
      | condition _ hcondition => exact .inr ⟨_, rfl, hcondition⟩
  · cases more <;> simp [Node.notices]

/-- A group is noticed for what is ignored of it. -/
theorem groupNotices_eq {members : List (String × Document)} {connector : Connector}
    (h : IsGroup members connector) :
    groupNotices members = (Node.group members connector h).notices := by
  simp [groupNotices, Node.notices, Node.otherKeys, isSome_member?_iff]

/-- A group is valid if the list under its own key is, whatever stands under the others. -/
theorem valid_group_iff {members : List (String × Document)} {connector : Connector}
    (h : IsGroup members connector) :
    Valid (.object members) ↔
      ∃ items, Document.member? connector.sql members = some (.array items) ∧
        ∀ d ∈ items, Valid d := by
  constructor
  · intro hvalid
    cases hvalid with
    | empty => cases connector <;> simp [IsGroup, Document.keys] at h
    | group h' hitems hvalid =>
        -- an object is a group under one connector only
        have hc := (groupOf?_eq_some_iff.mpr h).symm.trans (groupOf?_eq_some_iff.mpr h')
        obtain rfl := Option.some.inj hc
        exact ⟨_, hitems, hvalid⟩
    | column h' => exact absurd h (h' _)
    | condition h' => exact absurd h (h' _)
  · rintro ⟨items, hitems, hvalid⟩
    exact .group h hitems hvalid

-- One law for each of the four functions of the reader, by induction on the document.
mutual

/-- **The reader of a filter** accepts the valid documents, and tells what is ignored at the nodes. -/
theorem gives_read (d : Document) :
    (read d).Gives (Valid d) ((visited d).flatMap Node.notices) := by
  match d with
  | .null => exact (Reading.gives_pure none).congr (iff_of_true trivial .null) fun _ => rfl
  | .bool b => exact Reading.gives_fail _ nofun
  | .number n => exact Reading.gives_fail _ nofun
  | .text s => exact Reading.gives_fail _ nofun
  | .array items =>
      exact ((gives_triple items).map some).congr Iff.rfl fun _ => by simp [visited]
  | .object [] => exact (Reading.gives_pure none).congr (iff_of_true trivial .empty) fun _ => rfl
  | .object ((column, value) :: more) =>
      rw [read]
      cases hg : groupOf? ((column, value) :: more) with
      | some connector =>
          have hgroup := groupOf?_eq_some_iff.mp hg
          rw [visited_group hgroup, List.flatMap_cons, ← groupNotices_eq hgroup]
          exact (((gives_readMember connector _).map some).after _).congr
            (valid_group_iff hgroup).symm fun _ => rfl
      | none =>
          have hgroup := groupOf?_eq_none_iff.mp hg
          rw [visited_column hgroup]
          exact (gives_shorthandColumn hgroup).map some

/-- The group under a key is that of the first member with this key. -/
theorem gives_readMember (connector : Connector) (members : List (String × Document)) :
    (readMember connector members).Gives
      (∃ items, Document.member? connector.sql members = some (.array items) ∧
        ∀ d ∈ items, Valid d)
      ((visitedMember connector members).flatMap Node.notices) := by
  match members with
  | [] => exact Reading.gives_fail _ (by simp [Document.member?])
  | (key, d) :: rest =>
      rw [readMember, visitedMember]
      by_cases hkey : key = connector.sql
      · rw [if_pos hkey, if_pos hkey]
        refine (gives_readGroup connector d).congr ?_ fun _ => rfl
        simp [Document.member?, hkey]
      · rw [if_neg hkey, if_neg hkey]
        refine (gives_readMember connector rest).congr ?_ fun _ => rfl
        simp [Document.member?, List.lookup_cons, beq_false_of_ne (Ne.symm hkey)]

/-- A group is accepted exactly if it is an array of valid documents. -/
theorem gives_readGroup (connector : Connector) (d : Document) :
    (readGroup connector d).Gives (∃ items, d = .array items ∧ ∀ d ∈ items, Valid d)
      ((visitedGroup d).flatMap Node.notices) := by
  match d with
  | .array items =>
      rw [readGroup, visitedGroup]
      exact ((gives_readAll items).map _).congr (by simp) fun _ => rfl
  | .null => exact Reading.gives_fail _ (by simp)
  | .bool b => exact Reading.gives_fail _ (by simp)
  | .number n => exact Reading.gives_fail _ (by simp)
  | .text s => exact Reading.gives_fail _ (by simp)
  | .object members => exact Reading.gives_fail _ (by simp)

/-- A list is accepted exactly if all of its documents are valid. -/
theorem gives_readAll (items : List Document) :
    (readAll items).Gives (∀ d ∈ items, Valid d) ((visitedAll items).flatMap Node.notices) := by
  match items with
  | [] => exact (Reading.gives_pure []).congr (by simp) fun _ => rfl
  | d :: rest =>
      rw [readAll, visitedAll, List.flatMap_append, List.forall_mem_cons]
      exact (gives_read d).bind fun p => (gives_readAll rest).map _

end

/-! ### The shorthand is exact -/

/-- **Nothing is told of a node exactly if nothing of it is ignored.** -/
theorem Node.notices_eq_nil_iff (n : Node) : n.notices = [] ↔ n.Exact := by
  cases n with
  | list items => simp [notices, Exact]
  | group members connector hgroup =>
      simp only [notices, Exact, List.append_eq_nil_iff, ite_eq_left_iff, reduceCtorEq, imp_false,
        Decidable.not_not, ite_eq_right_iff, otherKeys_eq_nil_iff]
      cases connector with
      | and =>
          constructor
          · rintro ⟨hboth, hkeys⟩ key hkey
            refine (hkeys key hkey).resolve_right fun hor => hboth ⟨hgroup, hor ▸ hkey⟩
          · intro h
            exact ⟨fun hboth => absurd (h _ hboth.2) (by decide), fun key hkey => .inl (h key hkey)⟩
      | or =>
          constructor
          · rintro ⟨-, hkeys⟩ key hkey
            exact (hkeys key hkey).resolve_left fun hand => hgroup.1 (hand ▸ hkey)
          · intro h
            exact ⟨fun hboth => hgroup.1 hboth.1, fun key hkey => .inr (h key hkey)⟩
  | column name value more => simp [notices, Exact]
  | condition name members =>
      simp only [notices, Exact, ite_eq_left_iff, reduceCtorEq, imp_false, Decidable.not_not,
        otherKeys_eq_nil_iff]

/-- Where no key stands twice, a group of which nothing is ignored has one member. -/
theorem Node.exact_group_iff {members : List (String × Document)} {connector : Connector}
    (hgroup : IsGroup members connector) (hkeys : (Document.keys members).Nodup) :
    (Node.group members connector hgroup).Exact ↔ members.length = 1 := by
  have hmem := hgroup.mem_keys
  match members with
  | [] => simp [Document.keys] at hmem
  | [m] =>
      have hm : connector.sql = m.1 := by simpa [Document.keys] using hmem
      simp [Exact, Document.keys, hm]
  | m :: m' :: rest =>
      refine iff_of_false (fun h => ?_) (by simp)
      have hm := h m.1 (by simp [Document.keys])
      have hm' := h m'.1 (by simp [Document.keys])
      simp [Document.keys, hm, hm'] at hkeys

/-- **The shorthand is exact.** The reader accepts the valid documents and no others. It accepts one
without a notice exactly if moreover nothing of what it comes to is ignored. And what it tells with
a result are the notices of the nodes it comes to, in their order. -/
theorem grammar_exact (d : Document) :
    ((∃ p, (read d).outcome = .ok p) ↔ Valid d) ∧
      ((∃ p, (read d).outcome = .ok p) ∧ (read d).notices = [] ↔
        Valid d ∧ ∀ n ∈ visited d, n.Exact) ∧
      ((∃ p, (read d).outcome = .ok p) →
        (read d).notices = (visited d).flatMap Node.notices) := by
  have h := gives_read d
  refine ⟨h.outcome, ?_, fun hok => h.notices (h.outcome.mp hok)⟩
  rw [h.outcome]
  refine and_congr_right fun hvalid => ?_
  rw [h.notices hvalid, List.flatMap_eq_nil_iff]
  exact forall₂_congr fun n _ => n.notices_eq_nil_iff

/-- A group that hides another one and a key, above a long list and a column whose condition says too
much. -/
theorem grammar_exact_nested :
    (read (.object
        [("AND", .array
          [.null, .array [.text "a", .text "=", .null, .null],
            .object [("b", .object [("value", .null), ("note", .null)]), ("c", .null)]]),
          ("OR", .null), ("d", .null)])).notices =
      [.bothGroups, .ignoredKeys ["d"], .listLength 4, .extraColumns 2,
        .unknownKeys "b" ["note"]] :=
  (grammar_exact _).2.2 ⟨_, rfl⟩

end Shorthand

end ScopedSql
