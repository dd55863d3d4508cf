import ScopedSql.Schema.Statements
import ScopedSql.Sql.Reader

/-!
# What the statements of a schema are

A definition that passes its checks is written as the tokens `written`, and any other is refused
(`TableDefinition.tokens_eq_ok_iff`, `IndexDefinition.tokens_eq_ok_iff`). So the statements of a schema
are those of its tables in order, each table directly followed by its indexes
(`Schema.statements_eq_ok_iff`).
-/

namespace ScopedSql

open Sql (Token keywords commaSeparated)

/-! ### What is written -/

/-- The tokens of a default. -/
def DefaultValue.written : Option DefaultValue → List Token
  | none => []
  | some d => [.word "DEFAULT", d.token]

/-- **The tokens of a column.** -/
def ColumnDefinition.written (c : ColumnDefinition) : List Token :=
  .word c.name :: .word c.dataType.sql ::
    (c.constraints.flatMap ColumnConstraint.tokens ++ DefaultValue.written c.default?)

/-- **The tokens of a reference.** -/
def ForeignKey.written (k : ForeignKey) : List Token :=
  keywords ["FOREIGN", "KEY"] ++ ([.opening, .word k.column, .closing, .word "REFERENCES",
    .word k.foreignTable, .opening, .word k.foreignColumn, .closing, .word "ON", .word "DELETE"] ++
      (k.onDelete.tokens ++ ([.word "ON", .word "UPDATE"] ++ k.onUpdate.tokens)))

/-- The tokens of a part of a table. -/
def Sql.TablePart.written : Sql.TablePart → List Token
  | .column c => c.written
  | .primaryKey names => keywords ["PRIMARY", "KEY"] ++ Sql.nameList names
  | .foreignKey k => k.written

namespace TableDefinition

/-- The parts of a table, in the order in which they are written. -/
def parts (t : TableDefinition) : List Sql.TablePart :=
  t.columns.map .column ++ (if t.primaryKey.isEmpty then [] else [.primaryKey t.primaryKey]) ++
    t.foreignKeys.map .foreignKey

/-- **The tokens of a table.** -/
def written (t : TableDefinition) : List Token :=
  keywords ["CREATE", "TABLE", "IF", "NOT", "EXISTS"] ++
    .word t.name :: .opening :: (commaSeparated (t.parts.map Sql.TablePart.written) ++ [.closing])

/-- **What is checked of a table** and of its indexes. -/
structure Checked (t : TableDefinition) : Prop where
  /-- The name is an identifier. -/
  name : isIdentifier t.name
  /-- There is a column. -/
  nonempty : t.columns ≠ []
  /-- Columns are called by identifiers. -/
  columns : ∀ c ∈ t.columns, isIdentifier c.name
  /-- So are those of the primary key. -/
  primaryKey : ∀ name ∈ t.primaryKey, isIdentifier name
  /-- References name identifiers. -/
  foreignKeys : ∀ k ∈ t.foreignKeys,
    isIdentifier k.column ∧ isIdentifier k.foreignTable ∧ isIdentifier k.foreignColumn

end TableDefinition

/-- **The tokens of an index** on a table. -/
def IndexDefinition.written (table : String) (i : IndexDefinition) : List Token :=
  .word "CREATE" :: ((if i.unique then [.word "UNIQUE"] else []) ++
    (keywords ["INDEX", "IF", "NOT", "EXISTS"] ++
      .word i.name :: .word "ON" :: .word table :: Sql.nameList i.columns))

/-- **What is checked of an index.** -/
structure IndexDefinition.Checked (i : IndexDefinition) : Prop where
  /-- The name is an identifier. -/
  name : isIdentifier i.name
  /-- Columns are called by identifiers. -/
  columns : ∀ name ∈ i.columns, isIdentifier name

/-- **The statements of a table**, as tokens: the table, then its indexes. -/
def TableDefinition.allWritten (t : TableDefinition) : List (List Token) :=
  t.written :: t.indexes.map (IndexDefinition.written t.name)

/-! ### What passes the checks -/

/-- A list passes if each of its parts does, and comes to what the parts come to. -/
theorem mapM_eq_ok_iff {α β : Type} {f : α → Except Fault β} {g : α → β} {p : α → Prop}
    (hf : ∀ x y, f x = .ok y ↔ p x ∧ y = g x) {xs : List α} {ys : List β} :
    xs.mapM f = .ok ys ↔ (∀ x ∈ xs, p x) ∧ ys = xs.map g := by
  induction xs generalizing ys with
  | nil =>
      rw [List.mapM_nil, List.map_nil]
      exact ⟨fun h => ⟨by simp, (Except.ok.inj h).symm⟩, fun h => by rw [h.2]; rfl⟩
  | cons x xs ih =>
      rw [List.mapM_cons, List.forall_mem_cons]
      constructor
      · intro h
        cases hx : f x with
        | error e => rw [hx] at h; cases h
        | ok y =>
            cases hxs : xs.mapM f with
            | error e => rw [hx, hxs] at h; cases h
            | ok zs =>
                rw [hx, hxs] at h
                obtain rfl : y :: zs = ys := Except.ok.inj h
                obtain ⟨hp, rfl⟩ := (hf x y).mp hx
                obtain ⟨hps, rfl⟩ := ih.mp hxs
                exact ⟨⟨hp, hps⟩, rfl⟩
      · rintro ⟨⟨hp, hps⟩, rfl⟩
        rw [(hf x (g x)).mpr ⟨hp, rfl⟩, ih.mpr ⟨hps, rfl⟩]
        rfl

/-- A check has to pass. -/
theorem check_bind_eq_ok_iff {β : Type} {check : Except Fault Unit} {f : Except Fault β} {y : β} :
    (check >>= fun _ => f) = .ok y ↔ check = .ok () ∧ f = .ok y :=
  bind_eq_ok_iff.trans ⟨fun ⟨_, hc, h⟩ => ⟨hc, h⟩, fun h => ⟨(), h⟩⟩

/-- A column is written exactly if its name is plain. -/
theorem ColumnDefinition.tokens_eq_ok_iff (c : ColumnDefinition) (ts : List Token) :
    c.tokens = .ok ts ↔ isIdentifier c.name ∧ ts = c.written := by
  obtain ⟨name, dataType, constraints, default?⟩ := c
  rw [tokens, check_bind_eq_ok_iff, checkIdentifier_eq_ok_iff]
  refine and_congr_right' ?_
  cases default? <;> simp [written, DefaultValue.written, eq_comm]

/-- A foreign key is written exactly if its names are plain. -/
theorem ForeignKey.tokens_eq_ok_iff (k : ForeignKey) (ts : List Token) : k.tokens = .ok ts ↔
    (isIdentifier k.column ∧ isIdentifier k.foreignTable ∧ isIdentifier k.foreignColumn) ∧
      ts = k.written := by
  have hwritten : keywords ["FOREIGN", "KEY"] ++ Sql.nameList [k.column]
      ++ [.word "REFERENCES", .word k.foreignTable] ++ Sql.nameList [k.foreignColumn]
      ++ keywords ["ON", "DELETE"] ++ k.onDelete.tokens
      ++ keywords ["ON", "UPDATE"] ++ k.onUpdate.tokens = k.written := by
    simp [written, keywords, Sql.nameList, Sql.parenthesized, Sql.commaSeparated, Sql.separated]
  rw [tokens, check_bind_eq_ok_iff, checkIdentifiers_eq_ok_iff, hwritten, Except.ok.injEq,
    eq_comm (b := ts)]
  simp

/-- An index is written exactly if its names are plain. -/
theorem IndexDefinition.tokens_eq_ok_iff (table : String) (i : IndexDefinition) (ts : List Token) :
    i.tokens table = .ok ts ↔ i.Checked ∧ ts = i.written table := by
  have hwritten : [.word "CREATE"] ++ (if i.unique then [.word "UNIQUE"] else [])
      ++ keywords ["INDEX", "IF", "NOT", "EXISTS"] ++ [.word i.name]
      ++ [.word "ON", .word table] ++ Sql.nameList i.columns = i.written table := by
    simp [written]
  rw [tokens, check_bind_eq_ok_iff, check_bind_eq_ok_iff, checkIdentifier_eq_ok_iff,
    checkIdentifiers_eq_ok_iff, hwritten, Except.ok.injEq, eq_comm (b := ts), ← and_assoc]
  exact and_congr_left' ⟨fun h => ⟨h.1, h.2⟩, fun h => ⟨h.name, h.columns⟩⟩

namespace TableDefinition

/-- The primary key as a part of a table. -/
theorem primaryKeyTokens_eq_ok_iff (t : TableDefinition) (ps : List (List Token)) :
    t.primaryKeyTokens = .ok ps ↔ (∀ name ∈ t.primaryKey, isIdentifier name) ∧
      ps = (if t.primaryKey.isEmpty then [] else [Sql.TablePart.primaryKey t.primaryKey]).map
        Sql.TablePart.written := by
  rw [primaryKeyTokens]
  split
  · rename_i h
    rw [List.isEmpty_iff.mp h]
    exact ⟨fun hps => ⟨by simp, (Except.ok.inj hps).symm⟩, fun hps => by rw [hps.2]; rfl⟩
  · rw [check_bind_eq_ok_iff, checkIdentifiers_eq_ok_iff, Except.ok.injEq, eq_comm (b := ps)]
    rfl

/-- A table is written exactly if it is checked. -/
theorem tokens_eq_ok_iff (t : TableDefinition) (ts : List Token) :
    t.tokens = .ok ts ↔ t.Checked ∧ ts = t.written := by
  rw [tokens, check_bind_eq_ok_iff, checkIdentifier_eq_ok_iff]
  constructor
  · rintro ⟨hname, h⟩
    split at h
    · cases h
    · rename_i hne
      obtain ⟨columns, hcolumns, h⟩ := bind_eq_ok_iff.mp h
      obtain ⟨primaryKey, hprimaryKey, h⟩ := bind_eq_ok_iff.mp h
      obtain ⟨foreignKeys, hforeignKeys, h⟩ := bind_eq_ok_iff.mp h
      obtain ⟨hcs, rfl⟩ := (mapM_eq_ok_iff ColumnDefinition.tokens_eq_ok_iff).mp hcolumns
      obtain ⟨hpk, rfl⟩ := (t.primaryKeyTokens_eq_ok_iff _).mp hprimaryKey
      obtain ⟨hfks, rfl⟩ := (mapM_eq_ok_iff ForeignKey.tokens_eq_ok_iff).mp hforeignKeys
      refine ⟨⟨hname, fun hnil => hne (List.isEmpty_iff.mpr hnil), hcs, hpk, hfks⟩, ?_⟩
      rw [← Except.ok.inj h, written, parts]
      simp [Sql.parenthesized, Sql.TablePart.written, Function.comp_def]
  · rintro ⟨hc, rfl⟩
    refine ⟨hc.name, ?_⟩
    rw [if_neg fun h => hc.nonempty (List.isEmpty_iff.mp h), bind_eq_ok_iff]
    refine ⟨_, (mapM_eq_ok_iff ColumnDefinition.tokens_eq_ok_iff).mpr ⟨hc.columns, rfl⟩, ?_⟩
    rw [bind_eq_ok_iff]
    refine ⟨_, (t.primaryKeyTokens_eq_ok_iff _).mpr ⟨hc.primaryKey, rfl⟩, ?_⟩
    rw [bind_eq_ok_iff]
    refine ⟨_, (mapM_eq_ok_iff ForeignKey.tokens_eq_ok_iff).mpr ⟨hc.foreignKeys, rfl⟩, ?_⟩
    simp [written, parts, Sql.parenthesized, Sql.TablePart.written, Function.comp_def]

/-- **What is checked of a table with its indexes.** -/
structure AllChecked (t : TableDefinition) : Prop extends t.Checked where
  /-- Indexes pass their checks. -/
  indexes : ∀ i ∈ t.indexes, i.Checked

/-- The statements of a table are written exactly if it and its indexes are checked. -/
theorem statements_eq_ok_iff (t : TableDefinition) (ts : List (List Token)) :
    t.statements = .ok ts ↔ t.AllChecked ∧ ts = t.allWritten := by
  rw [statements, bind_eq_ok_iff]
  constructor
  · rintro ⟨table, htable, h⟩
    obtain ⟨indexes, hindexes, h⟩ := bind_eq_ok_iff.mp h
    obtain ⟨hc, rfl⟩ := (t.tokens_eq_ok_iff table).mp htable
    obtain ⟨his, rfl⟩ := (mapM_eq_ok_iff (IndexDefinition.tokens_eq_ok_iff t.name)).mp hindexes
    exact ⟨⟨hc, his⟩, (Except.ok.inj h).symm⟩
  · rintro ⟨hc, rfl⟩
    refine ⟨_, (t.tokens_eq_ok_iff _).mpr ⟨hc.toChecked, rfl⟩, bind_eq_ok_iff.mpr ⟨_, ?_, rfl⟩⟩
    exact (mapM_eq_ok_iff (IndexDefinition.tokens_eq_ok_iff t.name)).mpr ⟨hc.indexes, rfl⟩

end TableDefinition

/-- **The statements of a schema** are those of its tables, all of which pass their checks. -/
theorem Schema.statements_eq_ok_iff (s : Schema) (ts : List (List Token)) :
    s.statements = .ok ts ↔
      (∀ t ∈ s.tables, t.AllChecked) ∧ ts = s.tables.flatMap TableDefinition.allWritten := by
  rw [statements, bind_eq_ok_iff]
  constructor
  · rintro ⟨tables, htables, h⟩
    obtain ⟨hc, rfl⟩ := (mapM_eq_ok_iff TableDefinition.statements_eq_ok_iff).mp htables
    exact ⟨hc, (Except.ok.inj h).symm⟩
  · rintro ⟨hc, rfl⟩
    exact ⟨_, (mapM_eq_ok_iff TableDefinition.statements_eq_ok_iff).mpr ⟨hc, rfl⟩, rfl⟩

end ScopedSql
