import ScopedSql.Proofs.Predicate.Placeholders
import ScopedSql.Proofs.Query.Readback
import ScopedSql.Proofs.Sql.Rendering

/-!
# How rows are written and bound

A row is inserted and updated column by column in increasing order of name. Each value is bound once, to
a placeholder made of the name of its column, and the marks of these placeholders keep them apart from
those of a filter, whatever the columns are called. `Statement.Inserts` and `Statement.Updates` say so of
one statement.

A row is met as a list of entries that come in any order. `Statement.insertListed` and
`Statement.updateListed` make the statements from such a list as it comes, by sorting it and binding one
value after the other; they are the statements of the row.

## Main results

* `checkIdentifiers_names_eq_error_iff`: a row is refused for the least of its bad columns.
* `insertListed_eq`, `updateListed_eq`: the order in which entries are listed has no part in a statement.
* `inserts_of_ok`, `updates_of_ok`: the text and the bindings of the two statements.
* `columns_bound_apart_from_filter`: all of it for one row and one filter.
-/

namespace ScopedSql

open Sql (Token keywords Loose)

variable {table : String} {row : Row} {filter : Option Predicate} {clause : Clause} {s : Statement}

/-! ### Columns -/

/-- **The columns of a row as they are written**: all of them, each once, in increasing order. -/
structure ColumnsOf (row : Row) (columns : List String) : Prop where
  /-- The order. -/
  increasing : columns.Pairwise (· < ·)
  /-- The columns that have values. -/
  complete : ∀ c, c ∈ columns ↔ ∃ v, row.get? c = some v

/-- The least column of a row that is no plain name. -/
structure LeastBadColumn (row : Row) (column : String) : Prop where
  /-- It has a value. -/
  given : ∃ v, row.get? column = some v
  /-- It is no plain name. -/
  bad : ¬ IsPlainName column
  /-- No bad column is less. -/
  least : ∀ c v, row.get? c = some v → ¬ IsPlainName c → column ≤ c

/-- The names of a row are its columns. -/
theorem columnsOf_names (row : Row) : ColumnsOf row row.names :=
  ⟨List.pairwise_map.mpr row.sorted, fun _ => NameMap.mem_names_iff⟩

/-- **Columns are refused for the least one that is no plain name**: it is the first one in their order. -/
theorem checkIdentifiers_names_eq_error_iff {e : Fault} : checkIdentifiers row.names = .error e ↔
    ∃ c, LeastBadColumn row c ∧ e = .invalidIdentifier c := by
  obtain ⟨hsorted, hmem⟩ := columnsOf_names row
  rw [checkIdentifiers_eq_error_iff]
  simp only [isIdentifier_iff]
  constructor
  · rintro ⟨before, c, after, heq, hbefore, hbad, rfl⟩
    refine ⟨c, ⟨(hmem c).mp (heq ▸ List.mem_append_right _ List.mem_cons_self), hbad, ?_⟩, rfl⟩
    intro d v hd hdbad
    rw [heq] at hsorted hmem
    have hafter := (List.pairwise_cons.mp (List.pairwise_append.mp hsorted).2.1).1
    rcases List.mem_append.mp ((hmem d).mpr ⟨v, hd⟩) with hin | hin
    · exact absurd (hbefore d hin) hdbad
    · rcases List.mem_cons.mp hin with rfl | hin
      · exact String.le_refl d
      · exact String.not_lt.mp (String.lt_asymm (hafter d hin))
  · rintro ⟨c, ⟨hc, hbad, hleast⟩, rfl⟩
    obtain ⟨before, after, heq⟩ := List.append_of_mem ((hmem c).mpr hc)
    refine ⟨before, c, after, heq, fun d hd => Classical.byContradiction fun hdbad => ?_, hbad, rfl⟩
    rw [heq] at hsorted hmem
    obtain ⟨v, hv⟩ := (hmem d).mp (List.mem_append_left _ hd)
    have hlt := (List.pairwise_append.mp hsorted).2.2 d hd c List.mem_cons_self
    exact String.not_lt.mpr (hleast d v hv hdbad) hlt

/-! ### Filters -/

/-- The values that a filter binds. -/
def boundValues (filter : Option Predicate) : List Value := filter.elim [] Predicate.values

namespace Clause

/-- A compiled clause is that of the normal form of its filter. -/
theorem eq_ofNorm (h : ofPredicate filter = .ok clause) :
    clause = ofNorm (filter.bind Predicate.norm) := by
  cases filter with
  | none => exact (Except.ok.inj h).symm
  | some p => exact (ofPredicate_eq_ok h).2

/-- The bindings of a compiled clause are the values of its filter, in order. -/
theorem bindings_eq (h : ofPredicate filter = .ok clause) :
    clause.bindings = NameMap.ofList (bound 1 (boundValues filter)) := by
  rw [eq_ofNorm h, bindings_ofNorm]
  cases filter with
  | none => rfl
  | some p => rw [Option.bind_some, p.allValues_norm, boundValues, Option.elim_some]

/-- A filter binds each of its values, and nothing else. -/
theorem get?_eq_some_iff (h : ofPredicate filter = .ok clause) {name : String} {v : Value} :
    clause.bindings.get? name = some v ↔
      ∃ i, name = placeholder (i + 1) ∧ (boundValues filter)[i]? = some v := by
  rw [bindings_eq h, get?_ofList_bound]
  simp only [Nat.add_comm 1, and_comm]

/-- A compiled clause has one binding for each value of its filter. -/
theorem size_bindings (h : ofPredicate filter = .ok clause) :
    clause.bindings.size = (boundValues filter).length := by
  rw [bindings_eq h, NameMap.size_ofList (nodup_bound 1 _)]
  simp [bound]

/-- A clause that is not empty begins with `WHERE`. -/
theorem head?_tokens (h : ofPredicate filter = .ok clause) (hne : clause.isEmpty = false) :
    clause.tokens.head? = some (.word "WHERE") := by
  obtain rfl := eq_ofNorm h
  cases hn : filter.bind Predicate.norm with
  | none => simp [hn, ofNorm, nothing, isEmpty] at hne
  | some n => rfl

end Clause

namespace Statement

/-! ### Entries in any order -/

/-- Entries in increasing order of their columns. -/
def sortedByColumn (listed : List (String × Value)) : List (String × Value) :=
  listed.mergeSort fun a b => decide (a.1 ≤ b.1)

/-- Bindings with some more values, bound one after the other. -/
def bindEach (placeholder : String → String) (b : Bindings) (listed : List (String × Value)) :
    Bindings :=
  listed.foldl (fun b e => b.insert (placeholder e.1) e.2) b

/-- **Inserts entries as they are listed.** -/
def insertListed (table : String) (listed : List (String × Value)) : Except Fault Statement := do
  let columns := (sortedByColumn listed).map Prod.fst
  checkIdentifiers columns
  if columns.isEmpty then
    .ok ⟨keywords ["INSERT", "INTO"] ++ [.word table] ++ keywords ["DEFAULT", "VALUES"],
      NameMap.empty⟩
  else
    .ok ⟨keywords ["INSERT", "INTO"] ++ [.word table] ++ Sql.nameList columns
        ++ [.word "VALUES"] ++ Sql.parenthesized (Sql.commaSeparated
          (columns.map fun c => [.placeholder (insertedColumn c)])),
      bindEach insertedColumn NameMap.empty (sortedByColumn listed)⟩

/-- **Changes columns as they are listed.** -/
def updateListed (table : String) (listed : List (String × Value)) (filter : Clause) :
    Except Fault Statement := do
  let columns := (sortedByColumn listed).map Prod.fst
  checkIdentifiers columns
  if columns.isEmpty then .error (.invalidOperation (.emptyUpdate table))
  else
    .ok ⟨[.word "UPDATE", .word table, .word "SET"] ++ Sql.commaSeparated
          (columns.map fun c => [.word c, .sign "=", .placeholder (updatedColumn c)])
        ++ filter.tokens,
      (bindEach updatedColumn NameMap.empty (sortedByColumn listed)).extend filter.bindings⟩

variable {listed : List (String × Value)}

/-- Binding each of some entries gives the map of the bindings. -/
theorem bindEach_empty (placeholder : String → String) (listed : List (String × Value)) :
    bindEach placeholder NameMap.empty listed =
      NameMap.ofList (listed.map fun e => (placeholder e.1, e.2)) := by
  rw [bindEach, NameMap.ofList, List.foldl_map]

/-- A row has no names exactly if it has no columns. -/
theorem isEmpty_names (row : Row) : row.names.isEmpty = row.isEmpty :=
  List.isEmpty_map

/-- **The order in which entries are listed has no part in an insertion.** -/
theorem insertListed_eq (h : listed.Perm row.entries) (table : String) :
    insertListed table listed = insert table row := by
  have hsorted : sortedByColumn listed = row.entries := NameMap.mergeSort_of_perm_entries h
  rw [insertListed, hsorted, bindEach_empty, ← NameMap.names, isEmpty_names]
  rfl

/-- **The order in which entries are listed has no part in an update.** -/
theorem updateListed_eq (h : listed.Perm row.entries) (table : String) (clause : Clause) :
    updateListed table listed clause = update table row clause := by
  have hsorted : sortedByColumn listed = row.entries := NameMap.mergeSort_of_perm_entries h
  rw [updateListed, hsorted, bindEach_empty, ← NameMap.names, isEmpty_names]
  rfl

/-! ### Texts -/

/-- The placeholder of an inserted column is loose. -/
theorem loose_inserted (c : String) : Loose [.placeholder (insertedColumn c)] :=
  ⟨⟨_, rfl, nofun⟩, ⟨_, rfl, nofun, nofun⟩⟩

/-- An assignment is loose. -/
theorem loose_assignment (c : String) :
    Loose [.word c, .sign "=", .placeholder (updatedColumn c)] :=
  ⟨⟨_, rfl, nofun⟩, ⟨_, rfl, nofun, nofun⟩⟩

/-- How the placeholder of an inserted column is written. -/
theorem textOf_inserted (c : String) :
    Sql.textOf [.placeholder (insertedColumn c)] = "@col_" ++ c :=
  String.ofList_toList

/-- How an assignment is written. -/
theorem textOf_assignment (c : String) :
    Sql.textOf [.word c, .sign "=", .placeholder (updatedColumn c)] = c ++ " = @set_" ++ c := by
  rw [← String.toList_inj]
  simp [Sql.textOf, Sql.render, Token.tight, Token.chars, updatedColumn]

/-- Words are written with spaces between them. -/
theorem textOf_words (a b c : String) :
    Sql.textOf [.word a, .word b, .word c] = a ++ " " ++ b ++ " " ++ c := by
  rw [← String.toList_inj]
  simp [Sql.textOf, Sql.render, Token.tight, Token.chars]

/-- Parts for the columns of a row are written with commas between them. -/
theorem textOf_columns {part : String → List Token} {written : String → String}
    (hloose : ∀ c, Loose (part c)) (hwritten : ∀ c, Sql.textOf (part c) = written c)
    (columns : List String) :
    Sql.textOf (Sql.commaSeparated (columns.map part)) = ", ".intercalate (columns.map written) := by
  rw [Sql.textOf_commaSeparated (List.forall_mem_map.mpr fun c _ => hloose c), List.map_map]
  exact congrArg _ (List.map_congr_left fun c _ => hwritten c)

/-- Loose parts for some columns stay loose with commas between them. -/
theorem loose_columns {part : String → List Token} (hloose : ∀ c, Loose (part c))
    {columns : List String} (hne : columns ≠ []) :
    Loose (Sql.commaSeparated (columns.map part)) :=
  Sql.loose_commaSeparated (mt List.map_eq_nil_iff.mp hne) (List.forall_mem_map.mpr fun c _ => hloose c)

/-! ### The two statements -/

/-- **What the insertion of a row is**: its columns are listed in order, then their placeholders in the
same order, and these are bound to the values of the row, and nothing else is. -/
structure Inserts (s : Statement) (table : String) (row : Row) : Prop where
  /-- The number of bindings. -/
  size : s.bindings.size = row.size
  /-- The bindings. -/
  binds : ∀ name v, s.bindings.get? name = some v ↔ ∃ c, name = "@col_" ++ c ∧ row.get? c = some v
  /-- The text. -/
  text : ∃ columns, ColumnsOf row columns ∧ s.text =
    if columns = [] then "INSERT INTO " ++ table ++ " DEFAULT VALUES"
    else "INSERT INTO " ++ table ++ " (" ++ ", ".intercalate columns ++ ") VALUES (" ++
      ", ".intercalate (columns.map fun c => "@col_" ++ c) ++ ")"

/-- **What an update of the columns of a row is**: they are assigned their placeholders in order, the
clause of the filter follows, and the placeholders of the columns are bound to the values of the row and
those of the filter to its values, and nothing else is. -/
structure Updates (s : Statement) (table : String) (row : Row) (clause : Clause)
    (values : List Value) : Prop where
  /-- The number of bindings. -/
  size : s.bindings.size = row.size + values.length
  /-- The bindings. -/
  binds : ∀ name v, s.bindings.get? name = some v ↔
    (∃ c, name = "@set_" ++ c ∧ row.get? c = some v) ∨
      ∃ i, name = "@whr" ++ toString (i + 1) ∧ values[i]? = some v
  /-- The text. -/
  text : ∃ columns, ColumnsOf row columns ∧ s.text =
    "UPDATE " ++ table ++ " SET " ++ ", ".intercalate (columns.map fun c => c ++ " = @set_" ++ c) ++
      if clause.isEmpty then "" else " " ++ clause.text

/-- The text of an insertion of some columns. -/
theorem textOf_insertion (table : String) {columns : List String} (hne : columns ≠ []) :
    Sql.textOf (keywords ["INSERT", "INTO"] ++ [.word table] ++ Sql.nameList columns ++ [.word "VALUES"]
      ++ Sql.parenthesized (Sql.commaSeparated
        (columns.map fun c => [.placeholder (insertedColumn c)]))) =
    "INSERT INTO " ++ table ++ " (" ++ ", ".intercalate columns ++ ") VALUES (" ++
      ", ".intercalate (columns.map fun c => "@col_" ++ c) ++ ")" := by
  have hverb : Loose (keywords ["INSERT", "INTO"] ++ [.word table]) :=
    ⟨⟨_, rfl, nofun⟩, ⟨_, rfl, nofun, nofun⟩⟩
  have hnames := hverb.append
    (Sql.loose_parenthesized (Sql.commaSeparated (columns.map fun c => [.word c])))
  have hvalues := hnames.append (Sql.loose_word "VALUES")
  have hlisted := Sql.textOf_parenthesized (loose_columns Sql.loose_word hne).ne_nil
  have hplaceholders := Sql.textOf_parenthesized
    (loose_columns loose_inserted hne).ne_nil
  rw [Sql.nameList, Sql.textOf_append hvalues (Sql.loose_parenthesized _).first,
    Sql.textOf_append hnames (Sql.loose_word _).first,
    Sql.textOf_append hverb (Sql.loose_parenthesized _).first, hlisted, hplaceholders,
    textOf_columns Sql.loose_word Sql.textOf_singleton_word,
    textOf_columns loose_inserted textOf_inserted, List.map_id']
  have htext := textOf_words "INSERT" "INTO" table
  rw [← String.toList_inj]
  simp [keywords, htext, Sql.textOf_singleton_word]

/-- The text of an update of some columns. -/
theorem textOf_update (table : String) {columns : List String} (hne : columns ≠ [])
    (hc : Clause.ofPredicate filter = .ok clause) :
    Sql.textOf ([.word "UPDATE", .word table, .word "SET"] ++ Sql.commaSeparated
        (columns.map fun c => [.word c, .sign "=", .placeholder (updatedColumn c)])
      ++ clause.tokens) =
    "UPDATE " ++ table ++ " SET " ++ ", ".intercalate (columns.map fun c => c ++ " = @set_" ++ c) ++
      if clause.isEmpty then "" else " " ++ clause.text := by
  have hverb : Loose [.word "UPDATE", .word table, .word "SET"] :=
    ⟨⟨_, rfl, nofun⟩, ⟨_, rfl, nofun, nofun⟩⟩
  have hsets := loose_columns loose_assignment hne
  have hframe : Sql.textOf ([.word "UPDATE", .word table, .word "SET"] ++ Sql.commaSeparated
        (columns.map fun c => [.word c, .sign "=", .placeholder (updatedColumn c)])) =
      "UPDATE " ++ table ++ " SET " ++ ", ".intercalate (columns.map fun c => c ++ " = @set_" ++ c) := by
    rw [Sql.textOf_append hverb hsets.first, textOf_words,
      textOf_columns loose_assignment textOf_assignment, ← String.toList_inj]
    simp
  split
  case isTrue hempty =>
    rw [List.isEmpty_iff.mp hempty, List.append_nil, hframe, String.append_empty]
  case isFalse hempty =>
    have hhead := Clause.head?_tokens hc (Bool.eq_false_iff.mpr hempty)
    rw [Sql.textOf_append (hverb.append hsets) ⟨_, hhead, nofun, nofun⟩, hframe, String.append_assoc]
    rfl

/-- **An insertion that is planned** inserts its row. -/
theorem inserts_of_ok (h : insert table row = .ok s) : s.Inserts table row := by
  obtain ⟨-, rfl⟩ := insert_eq_ok h
  have hcolumns := columnsOf_names row
  rw [Meaning.statement]
  split
  case isTrue hempty =>
    obtain rfl := NameMap.eq_empty_of_isEmpty hempty
    refine ⟨rfl, fun name v => by simp, _, hcolumns, ?_⟩
    rw [if_pos (by rfl), ← String.toList_inj]
    simp [text, Sql.textOf, Sql.render, Token.tight, Token.chars, keywords]
  case isFalse hempty =>
    have hne : row.names ≠ [] := NameMap.names_ne_nil (Bool.eq_false_iff.mpr hempty)
    have hinj := Meaning.append_injective "@col_"
    refine ⟨?_, fun name v => NameMap.get?_rename_eq_some_iff hinj, _, hcolumns, ?_⟩
    · exact (NameMap.size_ofList (NameMap.nodup_rename hinj row)).trans (List.length_map _)
    · rw [if_neg hne]
      exact textOf_insertion table hne

/-- **An update that is planned** updates the columns of its row. -/
theorem updates_of_ok (hc : Clause.ofPredicate filter = .ok clause)
    (h : update table row clause = .ok s) : s.Updates table row clause (boundValues filter) := by
  obtain ⟨⟨⟩, -, h⟩ := bind_eq_ok_iff.mp h
  split at h
  · nomatch h
  case isFalse hempty =>
    cases h
    have hne : row.names ≠ [] := NameMap.names_ne_nil (Bool.eq_false_iff.mpr hempty)
    have hinj := Meaning.append_injective "@set_"
    have hset : ∀ name v, (Meaning.bound updatedColumn row).get? name = some v ↔
        ∃ c, name = updatedColumn c ∧ row.get? c = some v :=
      fun name v => NameMap.get?_rename_eq_some_iff hinj
    have hfree : ∀ c, clause.bindings.get? (updatedColumn c) = none := by
      intro c
      rw [Clause.eq_ofNorm hc]
      exact Meaning.get?_ofNorm_updatedColumn _ c
    refine ⟨?_, fun name v => ?_, _, columnsOf_names row, textOf_update table hne hc⟩
    · have hsize := NameMap.size_ofList (NameMap.nodup_rename hinj row)
      rw [List.length_map] at hsize
      refine (NameMap.size_extend fun name hname hfilter => ?_).trans
        (congrArg₂ _ hsize (Clause.size_bindings hc))
      obtain ⟨v, hv⟩ := NameMap.mem_names_iff.mp hname
      obtain ⟨c, rfl, -⟩ := (hset name v).mp hv
      obtain ⟨w, hw⟩ := NameMap.mem_names_iff.mp hfilter
      rw [hfree c] at hw
      cases hw
    · change ((Meaning.bound updatedColumn row).extend clause.bindings).get? name = some v ↔ _
      rw [NameMap.get?_extend, Option.or_eq_some_iff, hset, Clause.get?_eq_some_iff hc, or_comm]
      refine or_congr_left (and_iff_right_of_imp ?_)
      rintro ⟨c, rfl, -⟩
      exact hfree c

/-! ### Refusals -/

/-- **An insertion is refused for the least bad column**, and for nothing else. -/
theorem insert_eq_error_iff {e : Fault} : insert table row = .error e ↔
    ∃ c, LeastBadColumn row c ∧ e = .invalidIdentifier c := by
  rw [← checkIdentifiers_names_eq_error_iff, insert]
  cases checkIdentifiers row.names with
  | error e' => simp [bind, Except.bind]
  | ok u =>
      refine iff_of_false ?_ nofun
      change (if row.isEmpty then _ else _) ≠ _
      split <;> nofun

/-- **An update is refused for the least bad column**, and if the row is empty. -/
theorem update_eq_error_iff {e : Fault} : update table row clause = .error e ↔
    (∃ c, LeastBadColumn row c ∧ e = .invalidIdentifier c) ∨
      row.isEmpty ∧ e = .invalidOperation (.emptyUpdate table) := by
  rw [← checkIdentifiers_names_eq_error_iff, update]
  cases hcheck : checkIdentifiers row.names with
  | error e' =>
      have hne : ¬ row.isEmpty := by
        intro hempty
        rw [NameMap.eq_empty_of_isEmpty hempty] at hcheck
        cases hcheck
      simp [hne, bind, Except.bind]
  | ok u =>
      change (if row.isEmpty then _ else _) = _ ↔ _
      split
      case isTrue hempty => simp [hempty, eq_comm]
      case isFalse hempty => simp [hempty]

/-! ### The order of entries -/

/-- **Every value of a row is bound once, and apart from the filter.** Whatever the columns are called:
an insertion binds the values of its row, and an update those of its row and those of the filter. A row
does not remember in which order its entries were inserted, and the order in which they are listed has no
part in the statements. Both are refused for the least column that is no plain name, and else only an
update of an empty row is. -/
theorem columns_bound_apart_from_filter (table : String) (row : Row) {filter : Option Predicate}
    {clause : Clause} (hc : Clause.ofPredicate filter = .ok clause) :
    (∀ s, insert table row = .ok s → s.Inserts table row) ∧
      (∀ s, update table row clause = .ok s → s.Updates table row clause (boundValues filter)) ∧
      (∀ inserted : List (String × Value), (∀ c, inserted.reverse.lookup c = row.get? c) →
        insert table (NameMap.ofList inserted) = insert table row ∧
          update table (NameMap.ofList inserted) clause = update table row clause) ∧
      (∀ listed : List (String × Value), listed.Perm row.entries →
        insertListed table listed = insert table row ∧
          updateListed table listed clause = update table row clause) ∧
      (∀ e, insert table row = .error e ↔ ∃ c, LeastBadColumn row c ∧ e = .invalidIdentifier c) ∧
      ∀ e, update table row clause = .error e ↔
        (∃ c, LeastBadColumn row c ∧ e = .invalidIdentifier c) ∨
          row.isEmpty ∧ e = .invalidOperation (.emptyUpdate table) := by
  refine ⟨fun s => inserts_of_ok, fun s => updates_of_ok hc, fun inserted hinserted => ?_,
    fun listed hlisted => ⟨insertListed_eq hlisted table, updateListed_eq hlisted table clause⟩,
    fun e => insert_eq_error_iff, fun e => update_eq_error_iff⟩
  have hsame : NameMap.ofList inserted = row :=
    NameMap.ext_get? fun c => (NameMap.get?_ofList_eq_lookup inserted c).trans (hinserted c)
  rw [hsame]
  exact ⟨rfl, rfl⟩

/-- Columns that are called like placeholders of the filter and of the update itself, with a filter of
two values, and the same row without a name. -/
theorem columns_bound_apart_from_filter_whr :
    ∃ clause s, Clause.ofPredicate (some (.comparison "a" .isIn (.list [.null, .text "x"]))) = .ok clause ∧
      update "t" (NameMap.ofList [("whr1", .integer 1), ("set_x", .integer 2), ("X", .integer 3),
        ("whr1", .integer 4)]) clause = .ok s ∧
      s.text = "UPDATE t SET X = @set_X, set_x = @set_set_x, whr1 = @set_whr1 WHERE a IN (@whr1, @whr2)" ∧
      s.bindings.size = 5 ∧ s.bindings.get? "@set_whr1" = some (.integer 4) ∧
      s.bindings.get? "@whr1" = some .null ∧
      insert "t" (NameMap.ofList [("b", .null), ("a b", .null), ("1", .null)]) =
        .error (.invalidIdentifier "1") := by
  have hc : Clause.ofPredicate (some (.comparison "a" .isIn (.list [.null, .text "x"]))) = .ok _ := rfl
  obtain ⟨-, hupdate, -⟩ := columns_bound_apart_from_filter "t"
    (NameMap.ofList [("whr1", .integer 1), ("set_x", .integer 2), ("X", .integer 3),
      ("whr1", .integer 4)]) hc
  have hs := hupdate _ rfl
  refine ⟨_, _, rfl, rfl, by decide +kernel, hs.size, (hs.binds _ _).mpr ?_, (hs.binds _ _).mpr ?_, ?_⟩
  · exact .inl ⟨"whr1", rfl, rfl⟩
  · exact .inr ⟨0, rfl, rfl⟩
  · rfl

end Statement

end ScopedSql
