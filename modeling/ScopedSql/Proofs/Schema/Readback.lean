import ScopedSql.Proofs.Decimal.Numeral
import ScopedSql.Proofs.Query.Readback
import ScopedSql.Proofs.Schema.Written
import ScopedSql.Proofs.Value.Documents

/-!
# Schemas are read back

The statements of a schema say all that the schema says. Their tokens are read back from the text, a text
default as one literal with exactly its characters. `Schema.read?` collects the tables and indexes of the
statements, and `Schema.read?_texts` says that this gives the schema. Columns may be called like keywords,
for the reader knows keywords by their place.
-/

namespace ScopedSql

open Sql (Token keywords commaSeparated)

/-! ### Reading the parts of a table -/

namespace Sql

variable {rest : List Token}

/-- **What follows a part** of a table: a comma or the closing parenthesis, if anything. -/
def Closed (rest : List Token) : Prop := ∀ t ∈ rest.head?, t = .comma ∨ t = .closing

/-- No word follows a part. -/
theorem Closed.ne_word (h : Closed rest) (w : String) : rest.head? ≠ some (.word w) := by
  intro hw
  rcases h _ hw with h | h <;> cases h

/-- The constraints of a column are read up to its default or its end. -/
theorem readConstraints?_eq (constraints : List ColumnConstraint)
    (h : ∀ w ∈ ["PRIMARY", "NOT", "UNIQUE"], rest.head? ≠ some (.word w)) :
    readConstraints? (constraints.flatMap ColumnConstraint.tokens ++ rest) =
      some (constraints, rest) := by
  induction constraints with
  | nil =>
      rw [List.flatMap_nil, List.nil_append]
      unfold readConstraints?
      split
      · exact absurd rfl (h "PRIMARY" (by simp))
      · exact absurd rfl (h "NOT" (by simp))
      · exact absurd rfl (h "UNIQUE" (by simp))
      · rfl
  | cons c constraints ih =>
      rw [List.flatMap_cons, List.append_assoc]
      cases c <;> simp [ColumnConstraint.tokens, keywords, readConstraints?, ih]

/-- A whole number is read as an integer. -/
theorem numberDefault?_toString (n : Int64) :
    numberDefault? (toString n.toInt) = some (.integer n) := by
  obtain ⟨w, hvalue, hw⟩ := Value.ofInt_toInt n
  have hread := Json.readNumber?_toString n.toInt
  rw [hw] at hread
  rw [numberDefault?, hread]
  simp only [hvalue, if_pos (Int64.toInt_le n), Int64.ofInt_toInt]

/-- A default that is no double is read up to the end of its column. -/
theorem readDefault?_eq {default? : Option DefaultValue} (hreal : ∀ x, default? ≠ some (.real x))
    (h : Closed rest) :
    readDefault? (DefaultValue.written default? ++ rest) = some (default?, rest) := by
  cases default? with
  | none =>
      change readDefault? rest = _
      unfold readDefault?
      split
      any_goals exact absurd rfl (h.ne_word "DEFAULT")
      rfl
  | some d =>
      cases d with
      | real x => exact absurd rfl (hreal x)
      | integer n =>
          simp only [DefaultValue.written, DefaultValue.token, List.cons_append, List.nil_append,
            readDefault?, numberDefault?_toString, Option.map_some]
      | _ => rfl

/-- An action is read. -/
theorem readAction?_eq (a : ForeignKeyAction) (rest : List Token) :
    readAction? (a.tokens ++ rest) = some (a, rest) := by
  cases a <;> rfl

/-- **A part that can be read**: a list of names is not empty, and no default is a double. -/
def TablePart.Readable : TablePart → Prop
  | .column c => ∀ x, c.default? ≠ some (.real x)
  | .primaryKey names => names ≠ []
  | .foreignKey _ => True

/-- What follows a name of type is no keyword of a key. -/
theorem sql_ne_key (d : DataType) : d.sql ≠ "KEY" := by
  cases d <;> decide

/-- A data type is read back from its name. -/
theorem dataType?_sql (d : DataType) : dataType? d.sql = some d := by
  cases d <;> rfl

/-- A column is read, also one that is called like a keyword. -/
theorem readTablePart?_column {c : ColumnDefinition} (hreal : ∀ x, c.default? ≠ some (.real x))
    (h : Closed rest) : readTablePart? (c.written ++ rest) = some (.column c, rest) := by
  obtain ⟨name, dataType, constraints, default?⟩ := c
  have hdefault := readDefault?_eq hreal h
  have hnext : ∀ w ∈ ["PRIMARY", "NOT", "UNIQUE"],
      (DefaultValue.written default? ++ rest).head? ≠ some (.word w) := by
    intro w hw
    cases default? with
    | none => exact h.ne_word w
    | some d =>
        rintro ⟨⟩
        exact absurd hw (by decide)
  have hconstraints := readConstraints?_eq constraints hnext
  have hkey := sql_ne_key dataType
  have htype := dataType?_sql dataType
  rw [ColumnDefinition.written, List.cons_append, List.cons_append, List.append_assoc]
  generalize dataType.sql = type at hkey htype ⊢
  unfold readTablePart?
  split
  · rename_i heq
    simp at heq
    exact absurd heq.2.1 hkey
  · rename_i heq
    simp at heq
    exact absurd heq.2.1 hkey
  · rename_i heq
    obtain ⟨⟨⟩, ⟨⟩, rfl⟩ : _ ∧ _ ∧ _ := by simpa using heq
    simp [htype, hconstraints, hdefault]
  · rename_i hno
    exact absurd rfl (hno _ _ _)

/-- A reference is read. -/
theorem readTablePart?_foreignKey (k : ForeignKey) (rest : List Token) :
    readTablePart? (k.written ++ rest) = some (.foreignKey k, rest) := by
  have hdelete := readAction?_eq k.onDelete (.word "ON" :: .word "UPDATE" :: (k.onUpdate.tokens ++ rest))
  have hupdate := readAction?_eq k.onUpdate rest
  simp [ForeignKey.written, keywords, readTablePart?, readForeignKey?, hdelete, hupdate, expect?]

/-- **A part of a table is read** up to the comma or the parenthesis behind it. -/
theorem readTablePart?_eq {part : TablePart} (hp : part.Readable) (h : Closed rest) :
    readTablePart? (part.written ++ rest) = some (part, rest) := by
  cases part with
  | column c => exact readTablePart?_column hp h
  | primaryKey names =>
      have hnames := readNameList?_eq hp rest
      rw [TablePart.written, List.append_assoc]
      simp [keywords, readTablePart?, hnames]
  | foreignKey k => exact readTablePart?_foreignKey k rest

/-- **The parts of a table are read** up to the closing parenthesis. -/
theorem readTableParts?_eq {parts : List TablePart} (hne : parts ≠ [])
    (hp : ∀ part ∈ parts, part.Readable) {fuel : Nat} (hf : parts.length ≤ fuel) :
    readTableParts? fuel (commaSeparated (parts.map TablePart.written) ++ .closing :: rest) =
      some (parts, rest) := by
  induction parts generalizing fuel with
  | nil => exact absurd rfl hne
  | cons part parts ih =>
      obtain ⟨hpart, hparts⟩ := List.forall_mem_cons.mp hp
      obtain ⟨fuel, rfl⟩ : ∃ n, fuel = n + 1 := ⟨fuel - 1, by simp at hf; omega⟩
      cases parts with
      | nil =>
          have hclosed : Closed (.closing :: rest) := by simp [Closed]
          have hread := readTablePart?_eq hpart hclosed
          simp [commaSeparated, separated, readTableParts?, hread]
      | cons next parts =>
          have hmore := ih (List.cons_ne_nil _ _) hparts (Nat.le_of_succ_le_succ hf)
          rw [commaSeparated_map_cons]
          generalize commaSeparated ((next :: parts).map TablePart.written) ++ .closing :: rest = ts
            at hmore ⊢
          have hclosed : Closed (.comma :: ts) := by simp [Closed]
          have hread := readTablePart?_eq hpart hclosed
          simp [readTableParts?, hread, hmore]

end Sql

/-! ### Reading tables and indexes -/

/-- A list of parts has at least as many tokens as parts. -/
theorem Sql.length_le_commaSeparated {parts : List (List Token)} (h : ∀ part ∈ parts, part ≠ []) :
    parts.length ≤ (commaSeparated parts).length := by
  induction parts with
  | nil => exact Nat.le_refl 0
  | cons part parts ih =>
      obtain ⟨hpart, hparts⟩ := List.forall_mem_cons.mp h
      have hpos := List.length_pos_iff.mpr hpart
      have hmore := ih hparts
      cases parts with
      | nil => simpa [commaSeparated, separated, Nat.succ_le_iff] using hpos
      | cons next parts =>
          simp only [commaSeparated, separated, List.length_append, List.length_cons] at hmore ⊢
          omega

/-- Entries with a mark are found by it. -/
theorem filterMap_map_of_some {α β : Type} {mark : α → β} {find : β → Option α}
    (h : ∀ a, find (mark a) = some a) (entries : List α) :
    (entries.map mark).filterMap find = entries := by
  rw [List.filterMap_map, show find ∘ mark = some from funext h, List.filterMap_some]

/-- Entries with another mark are not found. -/
theorem filterMap_map_of_none {α β γ : Type} {mark : α → β} {find : β → Option γ}
    (h : ∀ a, find (mark a) = none) (entries : List α) :
    (entries.map mark).filterMap find = [] := by
  rw [List.filterMap_map, List.filterMap_eq_nil_iff]
  exact fun a _ => h a

namespace TableDefinition

variable {t : TableDefinition}

/-- The parts of a table make up the table without its indexes. -/
theorem assembleTable_parts (t : TableDefinition) :
    Sql.assembleTable t.name t.parts = { t with indexes := [] } := by
  obtain ⟨name, columns, primaryKey, foreignKeys, indexes⟩ := t
  have hkey : ∀ {α : Type} (find : Sql.TablePart → Option α),
      (∀ names, find (.primaryKey names) = none) →
        (if primaryKey.isEmpty then [] else [Sql.TablePart.primaryKey primaryKey]).filterMap find =
          [] := by
    intro α find h
    split <;> simp [h]
  simp only [Sql.assembleTable, parts, List.filterMap_append, List.flatMap_append, mk.injEq]
  refine ⟨trivial, ?_, ?_, ?_, trivial⟩
  · rw [filterMap_map_of_some, hkey, filterMap_map_of_none, List.append_nil, List.append_nil] <;>
      exact fun _ => rfl
  · have hnone : ∀ {α : Type} (xs : List α), (xs.flatMap fun _ => ([] : List String)) = [] :=
      fun xs => by simp
    cases primaryKey <;> simp [List.flatMap_map, hnone]
  · rw [filterMap_map_of_none, hkey, filterMap_map_of_some, List.append_nil, List.nil_append] <;>
      exact fun _ => rfl

/-- The parts of a table without double defaults can be read. -/
theorem readable_parts (hreal : ∀ c ∈ t.columns, ∀ x, c.default? ≠ some (.real x)) :
    ∀ part ∈ t.parts, part.Readable := by
  intro part hp
  rcases List.mem_append.mp hp with hp | hp
  · rcases List.mem_append.mp hp with hp | hp
    · obtain ⟨c, hc, rfl⟩ := List.mem_map.mp hp
      exact hreal c hc
    · split at hp
      · cases hp
      · rename_i hne
        obtain rfl := List.mem_singleton.mp hp
        exact fun hnil => hne (List.isEmpty_iff.mpr hnil)
  · obtain ⟨k, -, rfl⟩ := List.mem_map.mp hp
    trivial

/-- A table with columns has parts. -/
theorem parts_ne_nil (h : t.columns ≠ []) : t.parts ≠ [] := by
  simp [parts, h]

/-- No part is written as nothing. -/
theorem written_ne_nil (part : Sql.TablePart) : part.written ≠ [] := by
  cases part <;> exact List.cons_ne_nil _ _

/-- **A table is read** from its tokens. -/
theorem readCommand?_written (hne : t.columns ≠ [])
    (hreal : ∀ c ∈ t.columns, ∀ x, c.default? ≠ some (.real x)) :
    Sql.readCommand? t.written = some (.createTable { t with indexes := [] }) := by
  have hlength : t.parts.length ≤
      (commaSeparated (t.parts.map Sql.TablePart.written) ++ [Token.closing]).length := by
    have hne : ∀ part ∈ t.parts.map Sql.TablePart.written, part ≠ [] := by
      rw [List.forall_mem_map]
      exact fun part _ => written_ne_nil part
    have hle := Sql.length_le_commaSeparated hne
    rw [List.length_map] at hle
    rw [List.length_append]
    exact Nat.le_add_right_of_le hle
  have hparts : Sql.readTableParts? _ (commaSeparated (t.parts.map Sql.TablePart.written) ++
      [.closing]) = some (t.parts, []) :=
    Sql.readTableParts?_eq (parts_ne_nil hne) (readable_parts hreal) hlength
  have htable : Sql.readTable? (.word t.name :: .opening ::
      (commaSeparated (t.parts.map Sql.TablePart.written) ++ [.closing])) =
        some ({ t with indexes := [] }, []) := by
    rw [Sql.readTable?, hparts, Option.map_some, ← assembleTable_parts]
  simp [written, keywords, Sql.readCommand?, Sql.readFront?, htable]

end TableDefinition

/-- **Reads a statement of a schema.** Commands name at least one column in an index, so an index without
columns is read apart from them. -/
def Sql.readDefinition? (ts : List Token) : Option Sql.Command :=
  match ts with
  | [.word "CREATE", .word "INDEX", .word "IF", .word "NOT", .word "EXISTS", .word name, .word "ON",
      .word table, .opening, .closing] => some (.createIndex table ⟨name, [], false⟩)
  | [.word "CREATE", .word "UNIQUE", .word "INDEX", .word "IF", .word "NOT", .word "EXISTS",
      .word name, .word "ON", .word table, .opening, .closing] =>
      some (.createIndex table ⟨name, [], true⟩)
  | ts => readCommand? ts

/-- **A table is read back** from its tokens, without its indexes. -/
theorem Sql.readDefinition?_table {t : TableDefinition} (hne : t.columns ≠ [])
    (hreal : ∀ c ∈ t.columns, ∀ x, c.default? ≠ some (.real x)) :
    readDefinition? t.written = some (.createTable { t with indexes := [] }) := by
  have hread := TableDefinition.readCommand?_written hne hreal
  rw [readDefinition?]
  · exact hread
  · intro name table h
    simp [TableDefinition.written, keywords] at h
  · intro name table h
    simp [TableDefinition.written, keywords] at h

/-- A list of names is empty only if its parentheses are. -/
theorem Sql.nameList_eq_nil {names : List String} (h : nameList names = [.opening, .closing]) :
    names = [] := by
  cases names with
  | nil => rfl
  | cons n names => cases names <;> simp [nameList, parenthesized, commaSeparated, separated] at h

/-- **An index is read back** from its tokens. -/
theorem Sql.readDefinition?_index (table : String) (i : IndexDefinition) :
    readDefinition? (i.written table) = some (.createIndex table i) := by
  obtain ⟨name, columns, unique⟩ := i
  by_cases hc : columns = []
  · subst hc
    cases unique <;> rfl
  · have hnames := readNameList?_eq hc []
    have hbare : nameList columns ≠ [.opening, .closing] := fun h => hc (nameList_eq_nil h)
    rw [List.append_nil] at hnames
    cases unique <;>
      simp [IndexDefinition.written, keywords, readDefinition?, hbare, readCommand?, readFront?,
        readIndex?, hnames]

/-! ### The texts of statements -/

namespace Sql

/-- Identifiers can be read. -/
theorem legible_nameList {names : List String} (h : ∀ n ∈ names, isIdentifier n) :
    ∀ t ∈ nameList names, t.legible := by
  refine forall_parenthesized rfl rfl (forall_separated rfl ?_)
  rw [List.forall_mem_map]
  exact fun n hn => List.forall_mem_singleton.mpr (h n hn)

end Sql

/-- **A default that can be read**: all doubles but those that are no numbers. -/
def DefaultValue.Finite (d : DefaultValue) : Prop := ∀ x, d = .real x → x.isFinite

/-- A default that is a number, if it is a double, has a legible token. -/
theorem DefaultValue.legible_token {d : DefaultValue} (h : d.Finite) : d.token.legible := by
  cases d with
  | integer n => exact Sql.plain_of_isNumeral (isNumeral_toString n.toInt)
  | real x => exact Sql.plain_of_isNumeral (Decimal.Layout.isNumeral_render (.inl rfl) (h x rfl))
  | text s => rfl
  | null => decide
  | currentTimestamp => decide

/-- A column that has no double as its default can be read. -/
theorem DefaultValue.finite_of_ne_real {default? : Option DefaultValue}
    (hreal : ∀ x, default? ≠ some (.real x)) : ∀ d ∈ default?, d.Finite := by
  rintro d hd x rfl
  exact absurd hd (hreal x)

/-- A default is written with legible tokens. -/
theorem DefaultValue.legible_written {default? : Option DefaultValue} (h : ∀ d ∈ default?, d.Finite) :
    ∀ t ∈ written default?, t.legible := by
  cases default? with
  | none => simp [written]
  | some d =>
      refine List.forall_mem_cons.mpr ⟨by decide, List.forall_mem_singleton.mpr ?_⟩
      exact legible_token (h d rfl)

/-- A constraint is written with legible tokens. -/
theorem ColumnConstraint.legible_tokens (c : ColumnConstraint) : ∀ t ∈ c.tokens, t.legible := by
  cases c <;> decide

/-- An action is written with legible tokens. -/
theorem ForeignKeyAction.legible_tokens (a : ForeignKeyAction) : ∀ t ∈ a.tokens, t.legible := by
  cases a <;> decide

/-- The name of a data type is an identifier. -/
theorem DataType.isIdentifier_sql (d : DataType) : isIdentifier d.sql := by
  cases d <;> decide

/-- A column with a plain name is written with legible tokens. -/
theorem ColumnDefinition.legible_written {c : ColumnDefinition} (hc : isIdentifier c.name)
    (hdefault : ∀ d ∈ c.default?, d.Finite) : ∀ t ∈ c.written, t.legible := by
  refine List.forall_mem_cons.mpr ⟨hc, List.forall_mem_cons.mpr ⟨c.dataType.isIdentifier_sql, ?_⟩⟩
  refine List.forall_mem_append.mpr ⟨?_, DefaultValue.legible_written hdefault⟩
  rw [List.forall_mem_flatMap]
  exact fun a _ => a.legible_tokens

/-- A foreign key with plain names is written with legible tokens. -/
theorem ForeignKey.legible_written {k : ForeignKey}
    (h : isIdentifier k.column ∧ isIdentifier k.foreignTable ∧ isIdentifier k.foreignColumn) :
    ∀ t ∈ k.written, t.legible := by
  obtain ⟨hcolumn, htable, hforeign⟩ := h
  refine List.forall_mem_append.mpr ⟨by decide, List.forall_mem_append.mpr ⟨?_, ?_⟩⟩
  · have hon : ∀ w ∈ ["REFERENCES", "ON", "DELETE"], isIdentifier w := by decide
    simp [Sql.Token.legible, Sql.Token.plain, hcolumn, htable, hforeign, hon]
  · refine List.forall_mem_append.mpr ⟨k.onDelete.legible_tokens, ?_⟩
    exact List.forall_mem_append.mpr ⟨by decide, k.onUpdate.legible_tokens⟩

/-- **A checked table can be read** from its text, if its defaults can. -/
theorem TableDefinition.legible_written {t : TableDefinition} (hc : t.Checked)
    (hdefaults : ∀ c ∈ t.columns, ∀ d ∈ c.default?, d.Finite) :
    ∀ token ∈ t.written, token.legible := by
  have hparts : ∀ part ∈ t.parts.map Sql.TablePart.written, ∀ token ∈ part, token.legible := by
    rw [List.forall_mem_map]
    intro part hp
    rcases List.mem_append.mp hp with hp | hp
    · rcases List.mem_append.mp hp with hp | hp
      · obtain ⟨c, hmem, rfl⟩ := List.mem_map.mp hp
        exact ColumnDefinition.legible_written (hc.columns c hmem) (hdefaults c hmem)
      · split at hp
        · cases hp
        · obtain rfl := List.mem_singleton.mp hp
          exact List.forall_mem_append.mpr ⟨by decide, Sql.legible_nameList hc.primaryKey⟩
    · obtain ⟨k, hmem, rfl⟩ := List.mem_map.mp hp
      exact ForeignKey.legible_written (hc.foreignKeys k hmem)
  refine List.forall_mem_append.mpr ⟨by decide, List.forall_mem_cons.mpr ⟨hc.name, ?_⟩⟩
  exact Sql.forall_parenthesized rfl rfl (Sql.forall_separated rfl hparts)

/-- An index with plain names is written with legible tokens. -/
theorem IndexDefinition.legible_written {table : String} {i : IndexDefinition} (ht : isIdentifier table)
    (hc : i.Checked) : ∀ token ∈ i.written table, token.legible := by
  refine List.forall_mem_cons.mpr ⟨by decide, List.forall_mem_append.mpr ⟨?_, ?_⟩⟩
  · split <;> decide
  · refine List.forall_mem_append.mpr ⟨by decide, List.forall_mem_cons.mpr ⟨hc.name, ?_⟩⟩
    exact List.forall_mem_cons.mpr
      ⟨by decide, List.forall_mem_cons.mpr ⟨ht, Sql.legible_nameList hc.columns⟩⟩

/-! ### Reading schemas -/

namespace Schema

/-- Collects commands: the tables, and the indexes in front of the first of them. -/
def collect? : List Sql.Command → Option (List TableDefinition × List IndexDefinition)
  | [] => some ([], [])
  | .createTable t :: rest =>
      (collect? rest).map fun (tables, indexes) => ({ t with indexes } :: tables, [])
  | .createIndex _ i :: rest =>
      (collect? rest).map fun (tables, indexes) => (tables, i :: indexes)
  | _ :: _ => none

/-- **Reads a schema** from its statements. -/
def read? (texts : List String) : Option Schema :=
  match (texts.mapM fun text => (Sql.lex text.toList).bind Sql.readDefinition?).bind collect? with
  | some (tables, []) => some ⟨tables⟩
  | _ => none

/-- The commands of a table. -/
def commandsOf (t : TableDefinition) : List Sql.Command :=
  .createTable { t with indexes := [] } :: t.indexes.map (.createIndex t.name)

/-- The indexes of a table are collected in front of what comes after them. -/
theorem collect?_indexes (table : String) (indexes : List IndexDefinition) {rest : List Sql.Command}
    {tables : List TableDefinition} {more : List IndexDefinition}
    (h : collect? rest = some (tables, more)) :
    collect? (indexes.map (.createIndex table) ++ rest) = some (tables, indexes ++ more) := by
  induction indexes with
  | nil => exact h
  | cons i indexes ih => simp [collect?, ih]

/-- **The commands of tables are collected** into the tables. -/
theorem collect?_commandsOf (tables : List TableDefinition) :
    collect? (tables.flatMap commandsOf) = some (tables, []) := by
  induction tables with
  | nil => rfl
  | cons t tables ih =>
      have hindexes := collect?_indexes t.name t.indexes ih
      rw [List.append_nil] at hindexes
      rw [List.flatMap_cons, commandsOf, List.cons_append, collect?, hindexes]
      rfl

variable {s : Schema}

/-- **No double** is the default of a column. -/
def WithoutReals (s : Schema) : Prop :=
  ∀ t ∈ s.tables, ∀ c ∈ t.columns, ∀ x, c.default? ≠ some (.real x)

/-- The commands of a table are read from its statements. -/
theorem mapM_allWritten {t : TableDefinition} (hc : t.AllChecked)
    (hreal : ∀ c ∈ t.columns, ∀ x, c.default? ≠ some (.real x)) :
    (t.allWritten.map Sql.textOf).mapM (fun text => (Sql.lex text.toList).bind Sql.readDefinition?) =
      some (commandsOf t) := by
  have htable := Sql.lex_textOf (TableDefinition.legible_written hc.toChecked fun c hc =>
    DefaultValue.finite_of_ne_real (hreal c hc))
  have hindexes : ∀ indexes : List IndexDefinition, (∀ i ∈ indexes, i.Checked) →
      ((indexes.map (IndexDefinition.written t.name)).map Sql.textOf).mapM
        (fun text => (Sql.lex text.toList).bind Sql.readDefinition?) =
          some (indexes.map (.createIndex t.name)) := by
    intro indexes h
    induction indexes with
    | nil => rfl
    | cons i indexes ih =>
        obtain ⟨hi, his⟩ := List.forall_mem_cons.mp h
        have hindex := Sql.lex_textOf (IndexDefinition.legible_written hc.name hi)
        rw [List.map_cons, List.map_cons, List.mapM_cons, hindex, Option.bind_some,
          Sql.readDefinition?_index, ih his]
        rfl
  rw [TableDefinition.allWritten, List.map_cons, List.mapM_cons, htable, Option.bind_some,
    Sql.readDefinition?_table hc.nonempty hreal, hindexes _ hc.indexes]
  rfl

/-- **A schema is read back** from its statements. -/
theorem read?_texts {texts : List String} (hs : s.WithoutReals) (h : s.texts = .ok texts) :
    read? texts = some s := by
  obtain ⟨ts, hts, rfl⟩ := map_eq_ok_iff.mp h
  obtain ⟨hc, rfl⟩ := (s.statements_eq_ok_iff ts).mp hts
  have hcommands : ∀ tables : List TableDefinition, (∀ t ∈ tables, t.AllChecked) →
      (∀ t ∈ tables, ∀ c ∈ t.columns, ∀ x, c.default? ≠ some (.real x)) →
        ((tables.flatMap TableDefinition.allWritten).map Sql.textOf).mapM
          (fun text => (Sql.lex text.toList).bind Sql.readDefinition?) =
            some (tables.flatMap commandsOf) := by
    intro tables hc hs
    induction tables with
    | nil => rfl
    | cons t tables ih =>
        obtain ⟨ht, hmore⟩ := List.forall_mem_cons.mp hc
        obtain ⟨hr, hrs⟩ := List.forall_mem_cons.mp hs
        rw [List.flatMap_cons, List.map_append, List.mapM_append, mapM_allWritten ht hr, ih hmore hrs,
          List.flatMap_cons]
        rfl
  rw [read?, hcommands s.tables hc hs, Option.bind_some, collect?_commandsOf]

end Schema

/-! ### Text defaults -/

/-- A column with a text as its default. -/
def ColumnDefinition.withText (c : ColumnDefinition) (x : String) : ColumnDefinition :=
  { c with default? := some (.text x) }

/-- A part of a list with commas, with what stands before and behind it. -/
theorem Sql.commaSeparated_mid (before : List (List Token)) (part : List Token)
    (after : List (List Token)) : commaSeparated (before ++ part :: after) =
      before.flatMap (fun p => p ++ [.comma]) ++ (part ++ after.flatMap (.comma :: ·)) := by
  induction before with
  | nil => exact Sql.separated_cons .comma part after
  | cons p before ih =>
      have hstep : commaSeparated (p :: (before ++ part :: after)) =
          p ++ [.comma] ++ commaSeparated (before ++ part :: after) := by
        cases before <;> rfl
      rw [List.cons_append, hstep, ih, List.flatMap_cons]
      exact (List.append_assoc _ _ _).symm

namespace TableDefinition

variable {t : TableDefinition} {before after : List ColumnDefinition} {c : ColumnDefinition}

/-- What a table is written with up to one of its columns. -/
def front (t : TableDefinition) (before : List ColumnDefinition) : List Token :=
  keywords ["CREATE", "TABLE", "IF", "NOT", "EXISTS"] ++
    .word t.name :: .opening :: before.flatMap fun c => c.written ++ [.comma]

/-- What a table is written with behind one of its columns. -/
def back (t : TableDefinition) (after : List ColumnDefinition) : List Token :=
  (({ t with columns := after }).parts.map Sql.TablePart.written).flatMap (.comma :: ·) ++ [.closing]

/-- **A column stands between what is written before and behind it.** -/
theorem written_mid (t : TableDefinition) (before : List ColumnDefinition) (c : ColumnDefinition)
    (after : List ColumnDefinition) : ({ t with columns := before ++ c :: after }).written =
      t.front before ++ (c.written ++ t.back after) := by
  have hparts : ({ t with columns := before ++ c :: after }).parts =
      before.map .column ++ .column c :: ({ t with columns := after }).parts := by
    simp [parts]
  have hbefore : (((before.map Sql.TablePart.column).map Sql.TablePart.written).flatMap
      fun p => p ++ [.comma]) = before.flatMap fun c => c.written ++ [.comma] := by
    rw [List.map_map, List.flatMap_map]
    rfl
  rw [written, hparts, List.map_append, List.map_cons, Sql.commaSeparated_mid, Sql.TablePart.written,
    hbefore, front, back]
  simp only [List.append_assoc, List.cons_append]

/-- **A text default is one token of its table**, and no other token depends on it. -/
theorem exists_written_withText (t : TableDefinition) (before : List ColumnDefinition)
    (c : ColumnDefinition) (after : List ColumnDefinition) :
    ∃ front back : List Token, ∀ y,
      ({ t with columns := before ++ c.withText y :: after } : TableDefinition).written =
        front ++ .literal y :: back := by
  refine ⟨t.front before ++ (.word c.name :: .word c.dataType.sql ::
    (c.constraints.flatMap ColumnConstraint.tokens ++ [.word "DEFAULT"])), t.back after, fun y => ?_⟩
  rw [written_mid, ColumnDefinition.written, ColumnDefinition.withText]
  simp only [DefaultValue.written, DefaultValue.token, List.append_assoc, List.cons_append,
    List.nil_append]

/-- The checks of a table do not look at its defaults. -/
theorem Checked.withText (hc : t.Checked) (ht : t.columns = before ++ c :: after) (y : String) :
    Checked { t with columns := before ++ c.withText y :: after } where
  name := hc.name
  nonempty := by simp
  columns := by
    have hcolumns := hc.columns
    rw [ht, List.forall_mem_append, List.forall_mem_cons] at hcolumns
    rw [List.forall_mem_append, List.forall_mem_cons]
    exact hcolumns
  primaryKey := hc.primaryKey
  foreignKeys := hc.foreignKeys

/-- **A text default is read as one literal**, whatever characters it has, and with it nothing else of the
statement changes. -/
theorem exists_literal (hc : t.Checked) (hreal : ∀ c ∈ t.columns, ∀ x, c.default? ≠ some (.real x))
    (ht : t.columns = before ++ c :: after) : ∃ front back : List Token, ∀ y,
      ({ t with columns := before ++ c.withText y :: after } : TableDefinition).tokens =
          .ok (front ++ .literal y :: back) ∧
        Sql.lex (Sql.textOf (front ++ .literal y :: back)).toList =
          some (front ++ .literal y :: back) := by
  obtain ⟨front, back, hwritten⟩ := exists_written_withText t before c after
  refine ⟨front, back, fun y => ?_⟩
  have hchecked := hc.withText ht y
  have hreals : ∀ d ∈ before ++ c.withText y :: after, ∀ x, d.default? ≠ some (.real x) := by
    rw [ht, List.forall_mem_append, List.forall_mem_cons] at hreal
    rw [List.forall_mem_append, List.forall_mem_cons]
    exact ⟨hreal.1, nofun, hreal.2.2⟩
  rw [← hwritten y]
  exact ⟨(tokens_eq_ok_iff _ _).mpr ⟨hchecked, rfl⟩,
    Sql.lex_textOf (legible_written hchecked fun d hd =>
      DefaultValue.finite_of_ne_real (hreals d hd))⟩

end TableDefinition

namespace Schema

variable {s s' : Schema} {texts texts' : List String}

/-- **What the statements of a schema tell.** -/
structure Told (s : Schema) (texts : List String) : Prop where
  /-- There is one statement for each table, directly followed by one for each of its indexes. -/
  order : texts = s.tables.flatMap fun t =>
    Sql.textOf t.written :: t.indexes.map fun i => Sql.textOf (i.written t.name)
  /-- They are those that create the tables and the indexes. -/
  created : ∀ t ∈ s.tables, t.tokens = .ok t.written ∧
    ∀ i ∈ t.indexes, i.tokens t.name = .ok (i.written t.name)
  /-- The schema is read back from them. -/
  read : read? texts = some s
  /-- A text default is one literal of its statement, and no other token depends on it. -/
  literal : ∀ t ∈ s.tables, ∀ before c after x, t.columns = before ++ c :: after →
    c.default? = some (.text x) → ∃ front back : List Token,
      t.tokens = .ok (front ++ .literal x :: back) ∧ ∀ y,
        ({ t with columns := before ++ c.withText y :: after } : TableDefinition).tokens =
            .ok (front ++ .literal y :: back) ∧
          Sql.lex (Sql.textOf (front ++ .literal y :: back)).toList =
            some (front ++ .literal y :: back)

/-- **The statements of a schema tell the schema.** -/
theorem told_texts (hs : s.WithoutReals) (h : s.texts = .ok texts) : s.Told texts := by
  have hread := read?_texts hs h
  obtain ⟨ts, hts, rfl⟩ := map_eq_ok_iff.mp h
  obtain ⟨hc, rfl⟩ := (s.statements_eq_ok_iff ts).mp hts
  refine ⟨?_, fun t ht => ⟨?_, fun i hi => ?_⟩, hread, fun t ht before c after x hcolumns hx => ?_⟩
  · rw [List.map_flatMap]
    refine congrArg (s.tables.flatMap ·) (funext fun t => ?_)
    rw [TableDefinition.allWritten, List.map_cons, List.map_map]
    rfl
  · exact (t.tokens_eq_ok_iff _).mpr ⟨(hc t ht).toChecked, rfl⟩
  · exact (i.tokens_eq_ok_iff t.name _).mpr ⟨(hc t ht).indexes i hi, rfl⟩
  · obtain ⟨front, back, hall⟩ := TableDefinition.exists_literal (hc t ht).toChecked (hs t ht) hcolumns
    refine ⟨front, back, ?_, hall⟩
    have hsame : c.withText x = c := by rw [ColumnDefinition.withText, ← hx]
    have htable := (hall x).1
    rw [hsame, ← hcolumns] at htable
    exact htable

/-- **The text of a schema determines the schema.** Two schemas without doubles as defaults have the same
statements exactly if they are the same. A literal in a text ends where it was ended: whatever characters
it has, exactly these are read, and what follows is left as it is. -/
theorem texts_determine (hs : s.WithoutReals) (hs' : s'.WithoutReals) (h : s.texts = .ok texts)
    (h' : s'.texts = .ok texts') :
    (texts = texts' ↔ s = s') ∧ s.Told texts ∧ s'.Told texts' ∧
      ∀ (x : String) (rest : List Char), (∀ c ∈ rest.head?, c ≠ '\x27') →
        Sql.readLiteral? ((Sql.quoteLiteral x.toList).tail ++ rest) = some (x.toList, rest) := by
  have htold := told_texts hs h
  have htold' := told_texts hs' h'
  refine ⟨⟨fun heq => ?_, fun heq => ?_⟩, htold, htold', fun x rest hrest => ?_⟩
  · have hread := htold.read
    rw [heq, htold'.read] at hread
    exact (Option.some.inj hread).symm
  · subst heq
    exact Except.ok.inj (h.symm.trans h')
  · exact Sql.readLiteral?_quoted x.toList hrest

/-- A table whose columns are called like keywords, with a text as a default and an index without
columns. -/
def keywordTable (x : String) : TableDefinition where
  name := "t"
  columns := [⟨"PRIMARY", .integer, [.primaryKey], some (.integer (-1))⟩,
    ⟨"FOREIGN", .text, [.notNull, .unique], some (.text x)⟩]
  primaryKey := ["PRIMARY", "FOREIGN"]
  foreignKeys := [⟨"FOREIGN", "u", "KEY", .setNull, .noAction⟩]
  indexes := [⟨"i", [], true⟩]

/-- A text default that looks like the end of its column is one literal, and another text makes another
statement. -/
theorem texts_determine_keywords :
    ∃ texts texts' : List String,
      (Schema.mk [keywordTable "', KEY ('"]).texts = .ok texts ∧
      (Schema.mk [keywordTable ""]).texts = .ok texts' ∧
      texts = ["CREATE TABLE IF NOT EXISTS t (PRIMARY INTEGER PRIMARY KEY DEFAULT -1, " ++
        "FOREIGN TEXT NOT NULL UNIQUE DEFAULT ''', KEY (''', PRIMARY KEY (PRIMARY, FOREIGN), " ++
        "FOREIGN KEY (FOREIGN) REFERENCES u (KEY) ON DELETE SET NULL ON UPDATE NO ACTION)",
        "CREATE UNIQUE INDEX IF NOT EXISTS i ON t ()"] ∧
      read? texts = some ⟨[keywordTable "', KEY ('"]⟩ ∧ texts ≠ texts' := by
  have hs : ∀ x, (Schema.mk [keywordTable x]).WithoutReals := by
    intro x t ht c hc
    obtain rfl := List.mem_singleton.mp ht
    simp only [keywordTable, List.mem_cons, List.not_mem_nil, or_false] at hc
    rcases hc with rfl | rfl <;> nofun
  refine ⟨_, _, rfl, rfl, by decide +kernel, ?_⟩
  obtain ⟨hiff, htold, -⟩ := texts_determine (hs "', KEY ('") (hs "") rfl rfl
  exact ⟨htold.read, fun heq => absurd (hiff.mp heq) (by decide)⟩

end Schema

end ScopedSql
