import ScopedSql.Proofs.Predicate.Canonical
import ScopedSql.Proofs.Predicate.Grammar

/-!
# What the shorthand ignores has no influence

`Shorthand.clean` takes away what the reader of a filter ignores: entries of a list after the third,
keys beside a group, keys after the first of a column object, and keys of a condition that mean
nothing. What is left is read with the same result and without a notice (`Shorthand.read_clean`).

`Shorthand.Varies` says that two documents differ in nothing else: in the entries and values that
`clean` takes away, and in the order of the keys of groups and conditions. Then they are read with the
same result (`Shorthand.Varies.read`). The order of the keys of a column object does matter, so these
stay in their places.
-/

namespace ScopedSql

open Json (Document)

namespace Reading

variable {α β : Type}

/-- A reading that goes on has a result exactly if both parts have. -/
theorem outcome_bind_eq_ok_iff {r : Reading α} {f : α → Reading β} {b : β} :
    (r.bind f).outcome = .ok b ↔ ∃ a, r.outcome = .ok a ∧ (f a).outcome = .ok b := by
  cases hr : r.outcome <;> simp [Reading.bind, hr]

/-- What is done with a result afterwards can be undone. -/
theorem outcome_map_eq_ok_iff {r : Reading α} {f : α → β} {b : β} :
    (r.bind fun a => pure (f a)).outcome = .ok b ↔ ∃ a, r.outcome = .ok a ∧ f a = b := by
  simp [outcome_bind_eq_ok_iff, Reading.pure]

/-- A reading that has a result and gives no notices is nothing but its result. -/
theorem eq_pure_of_outcome {r : Reading α} {a : α} (h : r.outcome = .ok a)
    (hn : r.notices = []) : r = pure a := by
  obtain ⟨notices, outcome⟩ := r
  obtain rfl : notices = [] := hn
  obtain rfl : outcome = .ok a := h
  rfl

end Reading

namespace Shorthand

/-! ### Taking away what is ignored -/

/-- The value of a column: of a condition only the keys that mean something are kept. -/
def cleanValue : Document → Document
  | .object members => .object (members.filter fun m => m.1 == "operator" || m.1 == "value")
  | d => d

mutual

/-- **A filter without what its reader ignores.** -/
def clean : Document → Document
  | .array items => .array (items.take 3)
  | .object ((column, value) :: more) =>
      match groupOf? ((column, value) :: more) with
      | some connector =>
          .object [(connector.sql, cleanMember connector ((column, value) :: more))]
      | none => .object [(column, cleanValue value)]
  | d => d
termination_by structural d => d

/-- The value under the key of a connector, without what is ignored in it. -/
def cleanMember (connector : Connector) : List (String × Document) → Document
  | [] => .null
  | (key, d) :: rest =>
      if key = connector.sql then cleanGroup d else cleanMember connector rest
termination_by structural ms => ms

/-- The parts of a group, each without what is ignored in it. -/
def cleanGroup : Document → Document
  | .array items => .array (cleanAll items)
  | d => d
termination_by structural d => d

/-- Some filters, each without what is ignored in it. -/
def cleanAll : List Document → List Document
  | [] => []
  | d :: rest => clean d :: cleanAll rest
termination_by structural ds => ds

end

section Objects

variable {column : String} {value d : Document} {more : List (String × Document)}
  {connector : Connector}

/-- A clean group has one member. -/
theorem clean_group (h : IsGroup ((column, value) :: more) connector) :
    clean (.object ((column, value) :: more)) =
      .object [(connector.sql, cleanMember connector ((column, value) :: more))] := by
  rw [clean, groupOf?_eq_some_iff.mpr h]

/-- A clean column stands alone. -/
theorem clean_column (h : ∀ connector, ¬ IsGroup ((column, value) :: more) connector) :
    clean (.object ((column, value) :: more)) = .object [(column, cleanValue value)] := by
  rw [clean, groupOf?_eq_none_iff.mpr h]

/-- What is left of a group is the same group. -/
theorem isGroup_singleton (connector : Connector) (d : Document) :
    IsGroup [(connector.sql, d)] connector := by
  cases connector <;> simp [IsGroup, Document.keys, Connector.sql]

/-- What is left of an object that is no group is none. -/
theorem not_isGroup_singleton
    (h : ∀ connector, ¬ IsGroup ((column, value) :: more) connector) (d : Document) :
    ∀ connector, ¬ IsGroup [(column, d)] connector := by
  intro connector hgroup
  have hand := h .and
  have hor := h .or
  simp only [IsGroup, Document.keys, List.map_cons, List.mem_cons, not_or, not_and] at hand hor
  cases connector with
  | and => exact hand.1 (by simpa [IsGroup, Document.keys] using hgroup)
  | or =>
      have hcolumn : "OR" = column := by simpa [Document.keys] using hgroup.2
      exact (hor hand).1 hcolumn

end Objects

/-! ### Cleaning twice -/

/-- A value is cleaned once. -/
theorem cleanValue_cleanValue (d : Document) : cleanValue (cleanValue d) = cleanValue d := by
  cases d <;> simp [cleanValue]

-- One law for each of the four functions, by induction on the document.
mutual

/-- **In what is left nothing more is ignored.** -/
theorem clean_clean (d : Document) : clean (clean d) = clean d := by
  match d with
  | .null => rfl
  | .bool b => rfl
  | .number n => rfl
  | .text s => rfl
  | .array items => simp [clean, List.take_take]
  | .object [] => rfl
  | .object ((column, value) :: more) =>
      cases hg : groupOf? ((column, value) :: more) with
      | some connector =>
          rw [clean_group (groupOf?_eq_some_iff.mp hg), clean_group (isGroup_singleton _ _),
            cleanMember, if_pos rfl, cleanGroup_cleanMember]
      | none =>
          have hgroup := groupOf?_eq_none_iff.mp hg
          rw [clean_column hgroup, clean_column (not_isGroup_singleton hgroup _),
            cleanValue_cleanValue]

/-- The member of a clean group is clean. -/
theorem cleanGroup_cleanMember (connector : Connector) (members : List (String × Document)) :
    cleanGroup (cleanMember connector members) = cleanMember connector members := by
  match members with
  | [] => rfl
  | (key, d) :: rest =>
      rw [cleanMember]
      split
      · exact cleanGroup_cleanGroup d
      · exact cleanGroup_cleanMember connector rest

/-- A group is cleaned once. -/
theorem cleanGroup_cleanGroup (d : Document) : cleanGroup (cleanGroup d) = cleanGroup d := by
  match d with
  | .null => rfl
  | .bool b => rfl
  | .number n => rfl
  | .text s => rfl
  | .array items => rw [cleanGroup, cleanGroup, cleanAll_cleanAll]
  | .object members => rfl

/-- A list is cleaned once. -/
theorem cleanAll_cleanAll (items : List Document) : cleanAll (cleanAll items) = cleanAll items := by
  match items with
  | [] => rfl
  | d :: rest => rw [cleanAll, cleanAll, clean_clean, cleanAll_cleanAll]

end

/-! ### What is left is read as before -/

/-- The first three entries of a list filter are read like the whole. -/
theorem triple_take {items : List Document} {p : Predicate}
    (h : (triple items).outcome = .ok p) : triple (items.take 3) = Reading.pure p := by
  match items with
  | [] => cases h
  | [_] => cases h
  | [_, _] => cases h
  | column :: operator :: value :: more =>
      cases column with
      | text column =>
          cases operator with
          | text operator =>
              have hp : (operand value).map (.comparison column (.parse operator)) = .ok p := h
              rw [List.take_succ_cons, List.take_succ_cons, List.take_succ_cons, List.take_zero,
                triple, hp]
              rfl
          | _ => cases h
      | _ => cases h

/-- A member whose key is kept is found among those that are kept. -/
theorem member?_filter {p : String → Bool} {key : String} (hkey : p key)
    (members : List (String × Document)) :
    Document.member? key (members.filter fun m => p m.1) = Document.member? key members := by
  induction members with
  | nil => rfl
  | cons m rest ih =>
      simp only [Document.member?] at ih ⊢
      by_cases hm : key = m.1
      · subst hm
        rw [List.filter_cons, if_pos hkey, List.lookup_cons_self, List.lookup_cons_self]
      · have hbeq : (key == m.1) = false := beq_false_of_ne hm
        rw [List.lookup_cons, hbeq, List.filter_cons]
        split
        · rw [List.lookup_cons, hbeq, ih]
        · exact ih

/-- **A condition is read by its operator and its value**, whatever else there is. -/
theorem outcome_condition {column : String} {members members' : List (String × Document)}
    (hoperator : Document.member? "operator" members' = Document.member? "operator" members)
    (hvalue : Document.member? "value" members' = Document.member? "value" members)
    {p : Predicate} (h : (condition column members).outcome = .ok p) :
    (condition column members').outcome = .ok p := by
  unfold condition conditionOperator conditionOperand at h ⊢
  rw [hoperator, hvalue]
  split at h
  · cases h
  · rw [if_neg ‹_›]
    exact h

/-- What is left of a condition is read without a notice. -/
theorem condition_filter {column : String} {members : List (String × Document)} {p : Predicate}
    (h : (condition column members).outcome = .ok p) :
    condition column (members.filter fun m => m.1 == "operator" || m.1 == "value") =
      Reading.pure p := by
  have hknown : unknownKeys (members.filter fun m => m.1 == "operator" || m.1 == "value") = [] := by
    refine List.filter_eq_nil_iff.mpr fun key hkey => ?_
    obtain ⟨m, hm, rfl⟩ := List.mem_map.mp hkey
    have hm := (List.mem_filter.mp hm).2
    simpa [Decidable.or_iff_not_imp_left] using hm
  have hok := outcome_condition
    (member?_filter (p := fun key => key == "operator" || key == "value") rfl members)
    (member?_filter (p := fun key => key == "operator" || key == "value") rfl members) h
  refine Reading.eq_pure_of_outcome hok ?_
  unfold condition at hok ⊢
  split
  case isTrue hbare =>
    rw [if_pos hbare] at hok
    cases hok
  case isFalse =>
    simp only [hknown]
    rfl

/-- What is said of a column reads the same when it is clean, and without a notice. -/
theorem onColumn_cleanValue {column : String} {d : Document} {p : Predicate}
    (h : (onColumn column d).outcome = .ok p) :
    onColumn column (cleanValue d) = Reading.pure p := by
  cases d with
  | object members => exact condition_filter h
  | _ => exact Reading.eq_pure_of_outcome h rfl

-- One law for each of the four functions of the reader, by induction on the document.
mutual

/-- **What is left of a filter is read with the same result**, and without a notice. -/
theorem read_clean {d : Document} {r : Option Predicate} (h : (read d).outcome = .ok r) :
    read (clean d) = Reading.pure r := by
  match d with
  | .null =>
      cases h
      rfl
  | .bool b => cases h
  | .number n => cases h
  | .text s => cases h
  | .array items =>
      obtain ⟨p, hp, rfl⟩ := Reading.outcome_map_eq_ok_iff.mp h
      rw [clean, read, triple_take hp]
      rfl
  | .object [] =>
      cases h
      rfl
  | .object ((column, value) :: more) =>
      rw [read] at h
      cases hg : groupOf? ((column, value) :: more) with
      | some connector =>
          rw [hg] at h
          obtain ⟨p, hp, rfl⟩ := Reading.outcome_map_eq_ok_iff.mp h
          rw [clean_group (groupOf?_eq_some_iff.mp hg), read_group, readGroup_cleanMember hp]
          rfl
      | none =>
          rw [hg] at h
          obtain ⟨p, hp, rfl⟩ := Reading.outcome_map_eq_ok_iff.mp h
          have hgroup := groupOf?_eq_none_iff.mp hg
          rw [clean_column hgroup, read,
            groupOf?_eq_none_iff.mpr (not_isGroup_singleton hgroup _)]
          have hp : (onColumn column value).outcome = .ok p := hp
          simp only [shorthandColumn, onColumn_cleanValue hp]
          rfl

/-- The member of a group reads the same when it is clean, and without a notice. -/
theorem readGroup_cleanMember {connector : Connector} {members : List (String × Document)}
    {p : Predicate} (h : (readMember connector members).outcome = .ok p) :
    readGroup connector (cleanMember connector members) = Reading.pure p := by
  match members with
  | [] => cases h
  | (key, d) :: rest =>
      rw [readMember] at h
      rw [cleanMember]
      split at h
      case isTrue hkey =>
        rw [if_pos hkey]
        exact readGroup_cleanGroup h
      case isFalse hkey =>
        rw [if_neg hkey]
        exact readGroup_cleanMember h

/-- A group reads the same when it is clean, and without a notice. -/
theorem readGroup_cleanGroup {connector : Connector} {d : Document} {p : Predicate}
    (h : (readGroup connector d).outcome = .ok p) :
    readGroup connector (cleanGroup d) = Reading.pure p := by
  match d with
  | .array items =>
      obtain ⟨ps, hps, rfl⟩ := Reading.outcome_map_eq_ok_iff.mp h
      rw [cleanGroup, readGroup, readAll_cleanAll hps]
      rfl
  | .null => cases h
  | .bool b => cases h
  | .number n => cases h
  | .text s => cases h
  | .object members => cases h

/-- A list reads the same when it is clean, and without a notice. -/
theorem readAll_cleanAll {items : List Document} {ps : List Predicate}
    (h : (readAll items).outcome = .ok ps) : readAll (cleanAll items) = Reading.pure ps := by
  match items with
  | [] =>
      cases h
      rfl
  | d :: rest =>
      rw [readAll] at h
      obtain ⟨p, hp, h⟩ := Reading.outcome_bind_eq_ok_iff.mp h
      obtain ⟨qs, hqs, rfl⟩ := Reading.outcome_map_eq_ok_iff.mp h
      rw [cleanAll, readAll, read_clean hp, readAll_cleanAll hqs]
      rfl

end

/-! ### Varying what is ignored -/

mutual

/-- **Two documents differ only in what is ignored**, and in the order of the keys of groups and
conditions. -/
inductive Varies : Document → Document → Prop
  /-- They do not differ. -/
  | refl (d : Document) : Varies d d
  /-- Entries of a list after the third are others. -/
  | list (column operator value : Document) (more more' : List Document) :
      Varies (.array (column :: operator :: value :: more))
        (.array (column :: operator :: value :: more'))
  /-- The keys of a group are in another order, the values beside its list are others, and the filters
  in its list vary. -/
  | group {members members' : List (String × Document)} {connector : Connector}
      {items items' : List Document} (hgroup : IsGroup members connector)
      (hkeys : (Document.keys members').Perm (Document.keys members))
      (hitems : Document.member? connector.sql members = some (.array items))
      (hitems' : Document.member? connector.sql members' = some (.array items'))
      (hvary : VaryAll items items') : Varies (.object members) (.object members')
  /-- The values after the first one of a column object are others. -/
  | column {column : String} {value : Document} {more more' : List (String × Document)}
      (hgroup : ∀ connector, ¬ IsGroup ((column, value) :: more) connector)
      (hmore : Document.keys more' = Document.keys more) :
      Varies (.object ((column, value) :: more)) (.object ((column, value) :: more'))
  /-- So they are, and the keys of its condition are in another order, with other values but for the
  operator and the value. -/
  | condition {column : String} {members members' : List (String × Document)}
      {more more' : List (String × Document)}
      (hgroup : ∀ connector, ¬ IsGroup ((column, .object members) :: more) connector)
      (hmore : Document.keys more' = Document.keys more)
      (hkeys : (Document.keys members').Perm (Document.keys members))
      (hoperator : Document.member? "operator" members' = Document.member? "operator" members)
      (hvalue : Document.member? "value" members' = Document.member? "value" members) :
      Varies (.object ((column, .object members) :: more))
        (.object ((column, .object members') :: more'))

/-- Filters of two lists differ, one by one, only in what is ignored. -/
inductive VaryAll : List Document → List Document → Prop
  /-- There are none. -/
  | nil : VaryAll [] []
  /-- The first ones do, and all others. -/
  | cons {d d' : Document} {rest rest' : List Document} (hvary : Varies d d')
      (hrest : VaryAll rest rest') : VaryAll (d :: rest) (d' :: rest')

end

/-- An object with the same keys is the same group. -/
theorem IsGroup.congr {members members' : List (String × Document)} {connector : Connector}
    (hkeys : ∀ key, key ∈ Document.keys members' ↔ key ∈ Document.keys members) :
    IsGroup members' connector ↔ IsGroup members connector := by
  cases connector <;> simp only [IsGroup, hkeys]

/-- What is read of a group is the member with its connector as key. -/
theorem readMember_eq {connector : Connector} {members : List (String × Document)} {d : Document}
    (h : Document.member? connector.sql members = some d) :
    readMember connector members = readGroup connector d := by
  induction members with
  | nil => cases h
  | cons m rest ih =>
      obtain ⟨key, value⟩ := m
      rw [Document.member?, List.lookup_cons] at h
      rw [readMember]
      by_cases hkey : key = connector.sql
      · rw [if_pos hkey]
        simp only [hkey, beq_self_eq_true] at h
        rw [Option.some.inj h]
      · rw [if_neg hkey]
        rw [beq_false_of_ne (Ne.symm hkey)] at h
        exact ih h

/-- **A group is read by the list under its key**, whatever else there is. -/
theorem outcome_read_group {members : List (String × Document)} {connector : Connector}
    {items : List Document} {r : Option Predicate} (hgroup : IsGroup members connector)
    (hitems : Document.member? connector.sql members = some (.array items)) :
    (read (.object members)).outcome = .ok r ↔
      ∃ ps, (readAll items).outcome = .ok ps ∧ some (.group connector ps) = r := by
  match members with
  | [] => cases hitems
  | m :: more =>
      rw [read, groupOf?_eq_some_iff.mpr hgroup]
      simp only [Reading.after, readMember_eq hitems, readGroup, Reading.outcome_map_eq_ok_iff]
      simp

/-- **An object that is no group is read by its first member**, whatever else there is. -/
theorem outcome_read_column {column : String} {value : Document}
    {more : List (String × Document)} {r : Option Predicate}
    (hgroup : ∀ connector, ¬ IsGroup ((column, value) :: more) connector) :
    (read (.object ((column, value) :: more))).outcome = .ok r ↔
      ∃ p, (onColumn column value).outcome = .ok p ∧ some p = r := by
  rw [read, groupOf?_eq_none_iff.mpr hgroup]
  exact Reading.outcome_map_eq_ok_iff

/-- Objects with the same first member and the same keys are groups alike. -/
theorem not_isGroup_of_keys {column : String} {value value' : Document}
    {more more' : List (String × Document)}
    (hgroup : ∀ connector, ¬ IsGroup ((column, value) :: more) connector)
    (hmore : Document.keys more' = Document.keys more) :
    ∀ connector, ¬ IsGroup ((column, value') :: more') connector := by
  have hkeys : Document.keys ((column, value') :: more') = Document.keys ((column, value) :: more) :=
    congrArg (column :: ·) hmore
  exact fun connector => mt (IsGroup.congr fun key => by rw [hkeys]).mp (hgroup connector)

-- By induction on what varies: the parts of a group are in the second list.
mutual

/-- **What varies is read with the same result.** -/
theorem Varies.outcome_read {d d' : Document} {r : Option Predicate} (hv : Varies d d')
    (h : (read d).outcome = .ok r) : (read d').outcome = .ok r := by
  match hv with
  | .refl _ => exact h
  | .list column operator value more more' =>
      obtain ⟨p, hp, rfl⟩ := Reading.outcome_map_eq_ok_iff.mp h
      exact Reading.outcome_map_eq_ok_iff.mpr ⟨p, hp, rfl⟩
  | .group hgroup hkeys hitems hitems' hvary =>
      have hgroup' := (IsGroup.congr fun key => hkeys.mem_iff).mpr hgroup
      obtain ⟨ps, hps, rfl⟩ := (outcome_read_group hgroup hitems).mp h
      exact (outcome_read_group hgroup' hitems').mpr ⟨ps, hvary.outcome_readAll hps, rfl⟩
  | .column hgroup hmore =>
      obtain ⟨p, hp, rfl⟩ := (outcome_read_column hgroup).mp h
      exact (outcome_read_column (not_isGroup_of_keys hgroup hmore)).mpr ⟨p, hp, rfl⟩
  | .condition hgroup hmore hkeys hoperator hvalue =>
      obtain ⟨p, hp, rfl⟩ := (outcome_read_column hgroup).mp h
      exact (outcome_read_column (not_isGroup_of_keys hgroup hmore)).mpr
        ⟨p, outcome_condition hoperator hvalue hp, rfl⟩

/-- A list reads the same when what is ignored in it varies. -/
theorem VaryAll.outcome_readAll {items items' : List Document} {ps : List Predicate}
    (hv : VaryAll items items') (h : (readAll items).outcome = .ok ps) :
    (readAll items').outcome = .ok ps := by
  match hv with
  | .nil => exact h
  | .cons hvary hrest =>
      obtain ⟨p, hp, h⟩ := Reading.outcome_bind_eq_ok_iff.mp h
      obtain ⟨qs, hqs, rfl⟩ := Reading.outcome_map_eq_ok_iff.mp h
      refine Reading.outcome_bind_eq_ok_iff.mpr ⟨p, hvary.outcome_read hp, ?_⟩
      exact Reading.outcome_map_eq_ok_iff.mpr ⟨qs, hrest.outcome_readAll hqs, rfl⟩

end

/-- **What the reader ignores has no influence.** From a filter that is read, everything that is ignored
can be taken away, and once is enough: what is left is read with the same result and without a
notice. And whatever stands in the ignored places, and in whatever order the keys of groups and
conditions are, the result is the same. -/
theorem ignored_without_influence {d : Document} {r : Option Predicate}
    (h : (read d).outcome = .ok r) :
    (read (clean d)).outcome = .ok r ∧ (read (clean d)).notices = [] ∧ clean (clean d) = clean d ∧
      ∀ d', Varies d d' → (read d').outcome = .ok r := by
  rw [read_clean h]
  exact ⟨rfl, rfl, clean_clean d, fun d' hv => hv.outcome_read h⟩

/-- A group behind a key that is ignored, with a fourth entry, a second column and a note that turn into
filters of their own. -/
theorem ignored_without_influence_nested :
    (read (.object
        [("d", .object [("OR", .null)]),
          ("AND", .array
            [.array [.text "a", .text "=", .null, .array [.text "x"]],
              .object [("b", .object [("note", .object [("OR", .array [])]), ("value", .null)]),
                ("c", .object [("AND", .null)])]])])).outcome =
      .ok (some (.group .and
        [.comparison "a" .eq (.scalar .null), .comparison "b" .eq (.scalar .null)])) := by
  refine (ignored_without_influence (d := .object
    [("AND", .array
        [.array [.text "a", .text "=", .null],
          .object [("b", .object [("value", .null), ("note", .null)]), ("c", .null)]]),
      ("d", .null)]) rfl).2.2.2 _ ?_
  have hgroup : IsGroup [("AND", .array
        [.array [.text "a", .text "=", .null],
          .object [("b", .object [("value", .null), ("note", .null)]), ("c", .null)]]),
      ("d", .null)] .and := by simp [IsGroup, Document.keys]
  refine .group hgroup (.swap "AND" "d" []) rfl rfl (.cons (.list _ _ _ _ _) (.cons (.condition ?_ rfl ?_ rfl rfl) .nil))
  · exact groupOf?_eq_none_iff.mp (by decide)
  · exact .swap "value" "note" []

end Shorthand

end ScopedSql
