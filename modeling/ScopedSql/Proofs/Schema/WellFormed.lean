import Mathlib.Data.List.Chain
import ScopedSql.Proofs.Schema.Readback
import ScopedSql.Proofs.Sql.Rendering

/-!
# Which statements of a schema are well formed

`Sql.WellFormed` is the grammar of the statements of a schema: names are plain, lists in parentheses are
not empty, and a default is a numeral, a text literal or one of two keywords. The checks of a schema miss
two kinds of definitions that are not written in this grammar, an index without columns and a default that
is a double but no number. `Schema.statements_wellFormed_iff` says that there is no third kind.

That a text is in the grammar is seen from the definition it was written for. That it is not is seen from
two neighbours among its tokens: in no well-formed statement an opening parenthesis stands before a
closing one, or the word `DEFAULT` before one of the words for doubles that are no numbers
(`Sql.IsStatement.fitting`).
-/

namespace ScopedSql

open Sql (Token Loose keywords parenthesized commaSeparated nameList)

/-! ### The grammar -/

namespace Sql

/-- **Names that may be listed**: plain ones, and at least one. -/
structure AreListed (names : List String) : Prop where
  /-- There is one. -/
  nonempty : names ≠ []
  /-- They are plain. -/
  plain : ∀ name ∈ names, IsPlainName name

/-- **What may stand behind `DEFAULT`.** -/
inductive IsDefault : Token → Prop
  /-- A numeral. -/
  | number {text : String} (h : IsNumeral text) : IsDefault (.number text)
  /-- A text literal, which ends with a quote. -/
  | literal (text : String) : IsDefault (.literal text)
  /-- The absent value. -/
  | null : IsDefault (.word "NULL")
  /-- The time of the insertion. -/
  | currentTimestamp : IsDefault (.word "CURRENT_TIMESTAMP")

/-- **A column**: its name, its type, constraints and a default, if any. -/
inductive IsColumn : List Token → Prop
  /-- A column without default. -/
  | bare {name : String} (hname : IsPlainName name) (type : DataType)
      (constraints : List ColumnConstraint) :
      IsColumn (.word name :: .word type.sql :: constraints.flatMap ColumnConstraint.tokens)
  /-- A column with its default. -/
  | withDefault {name : String} {t : Token} (hname : IsPlainName name) (type : DataType)
      (constraints : List ColumnConstraint) (ht : IsDefault t) :
      IsColumn (.word name :: .word type.sql ::
        (constraints.flatMap ColumnConstraint.tokens ++ [.word "DEFAULT", t]))

/-- **A key of a table.** -/
inductive IsKey : List Token → Prop
  /-- The primary key. -/
  | primary {names : List String} (h : AreListed names) :
      IsKey (keywords ["PRIMARY", "KEY"] ++ nameList names)
  /-- A reference to another table. -/
  | foreign {columns others : List String} {table : String} (hcolumns : AreListed columns)
      (htable : IsPlainName table) (hothers : AreListed others) (onDelete onUpdate : ForeignKeyAction) :
      IsKey (keywords ["FOREIGN", "KEY"] ++ (nameList columns ++ (.word "REFERENCES" :: .word table ::
        (nameList others ++ (keywords ["ON", "DELETE"] ++ (onDelete.tokens ++
          (keywords ["ON", "UPDATE"] ++ onUpdate.tokens)))))))

/-- **A statement of a schema.** -/
inductive IsStatement : List Token → Prop
  /-- A table: at least one column, then its keys. -/
  | table {name : String} {columns keys : List (List Token)} (hname : IsPlainName name)
      (hne : columns ≠ []) (hcolumns : ∀ ts ∈ columns, IsColumn ts) (hkeys : ∀ ts ∈ keys, IsKey ts) :
      IsStatement (keywords ["CREATE", "TABLE", "IF", "NOT", "EXISTS"] ++
        .word name :: parenthesized (commaSeparated (columns ++ keys)))
  /-- An index on some columns of a table. -/
  | index (unique : Bool) {name table : String} {columns : List String} (hname : IsPlainName name)
      (htable : IsPlainName table) (hcolumns : AreListed columns) :
      IsStatement (.word "CREATE" :: ((if unique then [.word "UNIQUE"] else []) ++
        (keywords ["INDEX", "IF", "NOT", "EXISTS"] ++
          .word name :: .word "ON" :: .word table :: nameList columns)))

/-- **A well-formed text** of a statement. -/
def WellFormed (text : String) : Prop := ∃ ts, lex text.toList = some ts ∧ IsStatement ts

end Sql

/-! ### Definitions in the grammar -/

section Written

variable {names : List String}

/-- Plain names may be listed. -/
theorem areListed_of_isIdentifier (hne : names ≠ []) (h : ∀ name ∈ names, isIdentifier name) :
    Sql.AreListed names :=
  ⟨hne, fun name hname => isIdentifier_iff.mp (h name hname)⟩

/-- The token of a default that can be read is one that may stand there. -/
theorem DefaultValue.isDefault_token {d : DefaultValue} (h : d.Finite) : Sql.IsDefault d.token := by
  cases d with
  | integer n => exact .number (isNumeral_toString n.toInt)
  | text s => exact .literal s
  | real x => exact .number (Decimal.Layout.isNumeral_render (.inl rfl) (h x rfl))
  | null => exact .null
  | currentTimestamp => exact .currentTimestamp

/-- A column with a plain name and a finite default is written as a column. -/
theorem ColumnDefinition.isColumn_written {c : ColumnDefinition} (hname : isIdentifier c.name)
    (hdefault : ∀ d ∈ c.default?, d.Finite) : Sql.IsColumn c.written := by
  have hplain := isIdentifier_iff.mp hname
  rw [written]
  cases hd : c.default? with
  | none =>
      rw [DefaultValue.written, List.append_nil]
      exact .bare hplain _ _
  | some d => exact .withDefault hplain _ _ (DefaultValue.isDefault_token (hdefault d hd))

/-- A foreign key with plain names is written as one. -/
theorem ForeignKey.isKey_written {k : ForeignKey}
    (h : isIdentifier k.column ∧ isIdentifier k.foreignTable ∧ isIdentifier k.foreignColumn) :
    Sql.IsKey k.written :=
  .foreign (areListed_of_isIdentifier (List.cons_ne_nil _ _) (List.forall_mem_singleton.mpr h.1))
    (isIdentifier_iff.mp h.2.1)
    (areListed_of_isIdentifier (List.cons_ne_nil _ _) (List.forall_mem_singleton.mpr h.2.2)) _ _

/-- **A checked table is written in the grammar**, if its defaults can be read. -/
theorem TableDefinition.isStatement_written {t : TableDefinition} (hc : t.Checked)
    (hdefaults : ∀ c ∈ t.columns, ∀ d ∈ c.default?, d.Finite) : Sql.IsStatement t.written := by
  have hkeys : ∀ part ∈ (if t.primaryKey.isEmpty then [] else [Sql.TablePart.primaryKey t.primaryKey]) ++
      t.foreignKeys.map Sql.TablePart.foreignKey, Sql.IsKey part.written := by
    refine List.forall_mem_append.mpr ⟨?_, List.forall_mem_map.mpr fun k hk => ?_⟩
    · split
      case isTrue => nofun
      case isFalse hne =>
        refine List.forall_mem_singleton.mpr (.primary (areListed_of_isIdentifier ?_ hc.primaryKey))
        exact fun hnil => hne (List.isEmpty_iff.mpr hnil)
    · exact ForeignKey.isKey_written (hc.foreignKeys k hk)
  have hcolumns : ∀ ts ∈ t.columns.map ColumnDefinition.written, Sql.IsColumn ts :=
    List.forall_mem_map.mpr fun c hmem =>
      ColumnDefinition.isColumn_written (hc.columns c hmem) (hdefaults c hmem)
  have hstatement := Sql.IsStatement.table (isIdentifier_iff.mp hc.name)
    (mt List.map_eq_nil_iff.mp hc.nonempty) hcolumns (List.forall_mem_map.mpr hkeys)
  have hparts : t.parts.map Sql.TablePart.written = t.columns.map ColumnDefinition.written ++
      ((if t.primaryKey.isEmpty then [] else [Sql.TablePart.primaryKey t.primaryKey]) ++
        t.foreignKeys.map Sql.TablePart.foreignKey).map Sql.TablePart.written := by
    rw [parts, List.append_assoc, List.map_append, List.map_map]
    rfl
  rw [written, hparts]
  exact hstatement

/-- **A checked index is written in the grammar**, if it has a column. -/
theorem IndexDefinition.isStatement_written {table : String} {i : IndexDefinition}
    (ht : isIdentifier table) (hc : i.Checked) (hne : i.columns ≠ []) :
    Sql.IsStatement (i.written table) :=
  .index i.unique (isIdentifier_iff.mp hc.name) (isIdentifier_iff.mp ht)
    (areListed_of_isIdentifier hne hc.columns)

end Written

/-! ### Neighbours in the grammar -/

namespace Sql

variable {a b : Token} {ts us : List Token} {parts : List (List Token)}

/-- How a double that is no number begins. -/
def Broken (t : Token) : Prop := t = .word "NaN" ∨ t = .word "inf" ∨ t = .number "-"

/-- **Tokens that may be neighbours.** -/
structure Neighbours (a b : Token) : Prop where
  /-- Something stands in parentheses. -/
  filled : ¬ (a = .opening ∧ b = .closing)
  /-- Numbers stand behind `DEFAULT`. -/
  number : ¬ (a = .word "DEFAULT" ∧ Broken b)

/-- Tokens all of whose neighbours are such. -/
def Fitting (ts : List Token) : Prop := ts.IsChain Neighbours

/-- A token that anything may stand behind. -/
def Token.Free (t : Token) : Prop := t ≠ .opening ∧ t ≠ .word "DEFAULT"

/-- Anything may stand behind a free token. -/
theorem Token.Free.neighbours (h : a.Free) : Neighbours a b :=
  ⟨fun hab => h.1 hab.1, fun hab => h.2 hab.1⟩

/-- Anything else may stand behind an opening parenthesis. -/
theorem neighbours_opening (hb : b ≠ .closing) : Neighbours .opening b :=
  ⟨fun h => hb h.2, nofun⟩

/-- Anything else may stand before a closing parenthesis. -/
theorem neighbours_closing (ha : a ≠ .opening) : Neighbours a .closing :=
  ⟨fun h => ha h.1, by simp [Broken]⟩

/-- A comma may stand behind anything. -/
theorem neighbours_comma : Neighbours a .comma := ⟨nofun, by simp [Broken]⟩

/-- Parentheses may open behind a word. -/
theorem neighbours_word_opening {w : String} : Neighbours (.word w) .opening :=
  ⟨nofun, by simp [Broken]⟩

/-- A word may stand behind a word if it is a keyword. -/
theorem neighbours_keyword {w k : String} (hk : k ≠ "NaN" ∧ k ≠ "inf") :
    Neighbours (.word w) (.word k) :=
  ⟨nofun, by simp [Broken, hk]⟩

/-- No default is broken. -/
theorem IsDefault.neighbours (h : IsDefault b) : Neighbours (.word "DEFAULT") b := by
  refine ⟨nofun, fun hb => ?_⟩
  cases h with
  | number h =>
      rcases hb.2 with hb | hb | hb <;> cases hb
      exact not_isNumeral_minus h
  | literal => simp [Broken] at hb
  | null => simp [Broken] at hb
  | currentTimestamp => simp [Broken] at hb

/-- Fitting tokens fit behind fitting ones if those fit where they meet. -/
theorem fitting_append (ht : Fitting ts) (hu : Fitting us)
    (h : ∀ a ∈ ts.getLast?, ∀ b ∈ us.head?, Neighbours a b) : Fitting (ts ++ us) :=
  List.isChain_append.mpr ⟨ht, hu, h⟩

/-- A token fits in front of fitting ones if it fits where it meets them. -/
theorem fitting_cons (hu : Fitting us) (h : ∀ b ∈ us.head?, Neighbours a b) : Fitting (a :: us) :=
  List.isChain_cons.mpr ⟨h, hu⟩

/-- Free tokens may stand in front of anything. -/
theorem fitting_append_of_free (h : ∀ t ∈ ts, t.Free) (hu : Fitting us) : Fitting (ts ++ us) := by
  induction ts with
  | nil => exact hu
  | cons t ts ih =>
      obtain ⟨ht, hts⟩ := List.forall_mem_cons.mp h
      exact fitting_cons (ih hts) fun b _ => ht.neighbours

/-- Keywords fit. -/
theorem fitting_keywords {ws : List String} (h : ∀ w ∈ ws, w ≠ "NaN" ∧ w ≠ "inf") :
    Fitting (keywords ws) := by
  induction ws with
  | nil => exact .nil
  | cons w ws ih =>
      obtain ⟨-, hws⟩ := List.forall_mem_cons.mp h
      refine fitting_cons (ih hws) fun b hb => ?_
      obtain ⟨k, hk, rfl⟩ := List.mem_map.mp (List.mem_of_mem_head? hb)
      exact neighbours_keyword (hws k hk)

/-- Keywords but `DEFAULT` may stand in front of anything. -/
theorem fitting_keywords_append (ws : List String) (h : ∀ w ∈ ws, w ≠ "DEFAULT") (hu : Fitting us) :
    Fitting (keywords ws ++ us) := by
  refine fitting_append_of_free (List.forall_mem_map.mpr fun w hw => ⟨nofun, ?_⟩) hu
  exact fun heq => h w hw (Token.word.inj heq)

/-- Parts that fit also do with commas between them. -/
theorem fitting_commaSeparated (h : ∀ part ∈ parts, Fitting part) : Fitting (commaSeparated parts) := by
  induction parts with
  | nil => exact .nil
  | cons part parts ih =>
      obtain ⟨hpart, hparts⟩ := List.forall_mem_cons.mp h
      cases parts with
      | nil => exact hpart
      | cons next parts =>
          have hmore : Fitting (.comma :: commaSeparated (next :: parts)) :=
            fitting_cons (ih hparts) fun b _ => Token.Free.neighbours ⟨nofun, nofun⟩
          rw [commaSeparated_cons_cons]
          refine fitting_append hpart hmore fun a _ b hb => ?_
          obtain rfl : .comma = b := Option.some.inj hb
          exact neighbours_comma

/-- What fits also does in parentheses. -/
theorem fitting_parenthesized (hloose : Loose ts) (h : Fitting ts) : Fitting (parenthesized ts) := by
  obtain ⟨first, hfirst, hclosing, -⟩ := hloose.first
  obtain ⟨last, hlast, hopening⟩ := hloose.last
  refine fitting_cons (fitting_append h (.singleton _) fun a ha b hb => ?_) fun b hb => ?_
  · obtain rfl : .closing = b := Option.some.inj hb
    obtain rfl : last = a := Option.some.inj (hlast.symm.trans ha)
    exact neighbours_closing hopening
  · obtain rfl : first = b := by
      change b ∈ (ts ++ [Token.closing]).head? at hb
      rw [List.head?_append, hfirst] at hb
      exact Option.some.inj hb
    exact neighbours_opening hclosing

/-- Anything may stand behind parentheses. -/
theorem fitting_parenthesized_append (ht : Fitting (parenthesized ts)) (hu : Fitting us) :
    Fitting (parenthesized ts ++ us) := by
  refine fitting_append ht hu fun a ha b _ => ?_
  have hlast : (parenthesized ts).getLast? = some .closing := List.getLast?_concat
  obtain rfl := Option.some.inj (hlast.symm.trans ha)
  exact Token.Free.neighbours ⟨nofun, nofun⟩

/-- A list of names that is not empty fits, whatever the names are. -/
theorem AreListed.fitting {names : List String} (h : AreListed names) : Fitting (nameList names) := by
  refine fitting_parenthesized (loose_commaSeparated (mt List.map_eq_nil_iff.mp h.nonempty) ?_)
    (fitting_commaSeparated ?_)
  · exact List.forall_mem_map.mpr fun name _ => loose_word name
  · exact List.forall_mem_map.mpr fun name _ => .singleton _

/-- Anything may stand behind the tokens of a constraint. -/
theorem fitting_constraint (c : ColumnConstraint) : ∀ t ∈ c.tokens, t.Free := by
  cases c <;> simp [ColumnConstraint.tokens, keywords, Token.Free]

/-- Actions are keywords. -/
theorem exists_keywords (a : ForeignKeyAction) :
    ∃ w ws, a.tokens = keywords (w :: ws) ∧ ∀ k ∈ w :: ws, k ≠ "NaN" ∧ k ≠ "inf" := by
  cases a <;> exact ⟨_, _, rfl, by decide⟩

/-- No data type is called like a double that is no number, or like a default. -/
theorem sql_ne (d : DataType) : d.sql ≠ "NaN" ∧ d.sql ≠ "inf" ∧ d.sql ≠ "DEFAULT" := by
  cases d <;> decide

/-- A word with tokens behind it that are no parentheses is loose. -/
theorem loose_cons_word {w : String} (h : ∀ t ∈ ts, t ≠ .opening) : Loose (.word w :: ts) := by
  refine ⟨⟨(.word w :: ts).getLast (List.cons_ne_nil _ _), List.getLast?_eq_some_getLast _, ?_⟩,
    ⟨_, rfl, nofun, nofun⟩⟩
  rcases List.mem_cons.mp (List.getLast_mem (List.cons_ne_nil (.word w) ts)) with heq | hmem
  · rw [heq]
    nofun
  · exact h _ hmem

/-- Columns fit, and stand between commas. -/
theorem IsColumn.fits (h : IsColumn ts) : Loose ts ∧ Fitting ts := by
  have hfits : ∀ (name : String) (type : DataType) (constraints : List ColumnConstraint)
      (default : List Token), (∀ t ∈ default, t ≠ .opening) → Fitting default →
        Loose (.word name :: .word type.sql ::
            (constraints.flatMap ColumnConstraint.tokens ++ default)) ∧
          Fitting (.word name :: .word type.sql ::
            (constraints.flatMap ColumnConstraint.tokens ++ default)) := by
    intro name type constraints default hdefault hfit
    obtain ⟨hnan, hinf, hword⟩ := sql_ne type
    have hfree : ∀ t ∈ constraints.flatMap ColumnConstraint.tokens, t.Free :=
      List.forall_mem_flatMap.mpr fun c _ => fitting_constraint c
    refine ⟨loose_cons_word (List.forall_mem_cons.mpr ⟨nofun, List.forall_mem_append.mpr
      ⟨fun t ht => (hfree t ht).1, hdefault⟩⟩), ?_⟩
    refine fitting_cons (fitting_cons (fitting_append_of_free hfree hfit) fun b _ => ?_) fun b hb => ?_
    · exact Token.Free.neighbours ⟨nofun, fun heq => hword (Token.word.inj heq)⟩
    · obtain rfl : .word type.sql = b := Option.some.inj hb
      exact neighbours_keyword ⟨hnan, hinf⟩
  cases h with
  | @bare name hname type constraints =>
      have h := hfits name type constraints [] nofun .nil
      rwa [List.append_nil] at h
  | withDefault hname type constraints ht =>
      refine hfits _ type constraints _
        (List.forall_mem_cons.mpr ⟨nofun, List.forall_mem_singleton.mpr ?_⟩)
        (fitting_cons (.singleton _) fun b hb => ?_)
      · cases ht <;> nofun
      · obtain rfl := Option.some.inj hb
        exact ht.neighbours

/-- Keys fit, and stand between commas. -/
theorem IsKey.fits (h : IsKey ts) : Loose ts ∧ Fitting ts := by
  have hwords : ∀ w ws, Loose (keywords (w :: ws)) := fun w ws =>
    loose_cons_word (List.forall_mem_map.mpr fun _ _ => by simp)
  cases h with
  | primary h =>
      exact ⟨(hwords _ _).append (loose_parenthesized _), fitting_keywords_append _ (by decide) h.fitting⟩
  | @foreign columns others table hcolumns htable hothers onDelete onUpdate =>
      obtain ⟨w, ws, hdelete, hws⟩ := exists_keywords onDelete
      obtain ⟨k, ks, hupdate, hks⟩ := exists_keywords onUpdate
      have hactions : keywords ["ON", "DELETE"] ++ (onDelete.tokens ++
          (keywords ["ON", "UPDATE"] ++ onUpdate.tokens)) =
            keywords ("ON" :: "DELETE" :: (w :: ws ++ ("ON" :: "UPDATE" :: k :: ks))) := by
        rw [hdelete, hupdate]
        simp [keywords]
      have hfits : ∀ v ∈ "ON" :: "DELETE" :: (w :: ws ++ ("ON" :: "UPDATE" :: k :: ks)),
          v ≠ "NaN" ∧ v ≠ "inf" := by
        change ∀ v ∈ (["ON", "DELETE"] ++ w :: ws) ++ (["ON", "UPDATE"] ++ k :: ks), _
        simp only [List.forall_mem_append]
        exact ⟨⟨by decide, hws⟩, by decide, hks⟩
      rw [hactions]
      refine ⟨?_, ?_⟩
      · refine (hwords _ _).append ((loose_parenthesized _).append ?_)
        exact (hwords "REFERENCES" [table]).append ((loose_parenthesized _).append (hwords _ _))
      · have htail := fitting_parenthesized_append hothers.fitting (fitting_keywords hfits)
        refine fitting_keywords_append _ (by decide) (fitting_parenthesized_append hcolumns.fitting ?_)
        refine fitting_cons (fitting_cons htail fun b hb => ?_) fun b _ => ?_
        · obtain rfl : .opening = b := Option.some.inj hb
          exact neighbours_word_opening
        · exact Token.Free.neighbours ⟨by decide, by decide⟩

/-- **In a well-formed statement all neighbours fit.** -/
theorem IsStatement.fitting (h : IsStatement ts) : Fitting ts := by
  cases h with
  | @table name columns keys hname hne hcolumns hkeys =>
      have hparts : ∀ part ∈ columns ++ keys, Loose part ∧ Fitting part :=
        List.forall_mem_append.mpr ⟨fun c hc => (hcolumns c hc).fits, fun k hk => (hkeys k hk).fits⟩
      have hloose := loose_commaSeparated (by simp [hne]) fun part hp => (hparts part hp).1
      have hfit := fitting_commaSeparated fun part hp => (hparts part hp).2
      refine fitting_keywords_append _ (by decide) (fitting_cons (fitting_parenthesized hloose hfit) ?_)
      intro b hb
      obtain rfl : .opening = b := Option.some.inj hb
      exact neighbours_word_opening
  | @index unique name table columns hname htable hcolumns =>
      have htable : Fitting (.word table :: nameList columns) :=
        fitting_cons hcolumns.fitting fun b hb => by
          obtain rfl : .opening = b := Option.some.inj hb
          exact neighbours_word_opening
      have hon : Fitting (.word "ON" :: .word table :: nameList columns) :=
        fitting_keywords_append (["ON"]) (by decide) htable
      have hname : Fitting (.word name :: .word "ON" :: .word table :: nameList columns) :=
        fitting_cons hon fun b hb => by
          obtain rfl : .word "ON" = b := Option.some.inj hb
          exact neighbours_keyword (by decide)
      have hindex := fitting_keywords_append (["INDEX", "IF", "NOT", "EXISTS"]) (by decide) hname
      cases unique with
      | false => exact fitting_keywords_append (["CREATE"]) (by decide) hindex
      | true => exact fitting_keywords_append (["CREATE", "UNIQUE"]) (by decide) hindex

/-- **Two tokens that may not be neighbours** are so in no well-formed statement. -/
theorem not_isStatement (h : ¬ Neighbours a b) : ¬ IsStatement (ts ++ a :: b :: us) := fun hs =>
  h (List.isChain_cons_cons.mp (List.isChain_append.mp hs.fitting).2.1).1

end Sql

/-! ### Definitions outside of the grammar -/

/-- **An index without columns is not well formed**: its parentheses are empty. -/
theorem IndexDefinition.not_wellFormed {table : String} {i : IndexDefinition} (ht : isIdentifier table)
    (hc : i.Checked) (hnone : i.columns = []) : ¬ Sql.WellFormed (Sql.textOf (i.written table)) := by
  rintro ⟨ts, hlex, hstatement⟩
  rw [Sql.lex_textOf (legible_written ht hc)] at hlex
  obtain rfl := Option.some.inj hlex
  have hempty : i.written table = (.word "CREATE" :: ((if i.unique then [.word "UNIQUE"] else []) ++
      (keywords ["INDEX", "IF", "NOT", "EXISTS"] ++ [.word i.name, .word "ON", .word table]))) ++
        .opening :: .closing :: [] := by
    simp [written, hnone, Sql.nameList, Sql.parenthesized, Sql.commaSeparated, Sql.separated]
  rw [hempty] at hstatement
  exact Sql.not_isStatement (fun h => h.filled ⟨rfl, rfl⟩) hstatement

/-- **A double that is no number is read as something broken**, whatever ends it. -/
theorem exists_broken {x : Binary64} (hx : x.isFinite = false) {rest : List Char} (he : Sql.Ends rest) :
    ∃ c cs t after, (realLayout.render x).toList ++ rest = c :: cs ∧ Sql.isGap c = false ∧
      Sql.readToken? c cs = some (t, after) ∧ Sql.Broken t := by
  rcases Decimal.Layout.render_of_not_isFinite realLayout hx with h | h | h <;> rw [h]
  · exact ⟨'N', ['a', 'N'] ++ rest, _, _, rfl, rfl,
      Sql.readToken?_word rfl rfl (List.all_eq_true.mp rfl) he, .inl rfl⟩
  · exact ⟨'i', ['n', 'f'] ++ rest, _, _, rfl, rfl,
      Sql.readToken?_word rfl rfl (List.all_eq_true.mp rfl) he, .inr (.inl rfl)⟩
  · exact ⟨'-', 'i' :: 'n' :: 'f' :: rest, .number "-", 'i' :: 'n' :: 'f' :: rest, rfl, by decide, rfl,
      .inr (.inr rfl)⟩

/-- What a column is written with up to its default. -/
def ColumnDefinition.lead (c : ColumnDefinition) : List Token :=
  .word c.name :: .word c.dataType.sql :: c.constraints.flatMap ColumnConstraint.tokens

/-- A column is written with its default at the end. -/
theorem ColumnDefinition.written_eq (c : ColumnDefinition) :
    c.written = c.lead ++ DefaultValue.written c.default? := rfl

/-- A column with a plain name is written with legible tokens up to its default. -/
theorem ColumnDefinition.legible_lead (c : ColumnDefinition) (hc : isIdentifier c.name) :
    ∀ t ∈ c.lead, t.legible :=
  List.forall_mem_cons.mpr ⟨hc, List.forall_mem_cons.mpr ⟨c.dataType.isIdentifier_sql,
    List.forall_mem_flatMap.mpr fun a _ => a.legible_tokens⟩⟩

namespace TableDefinition

variable {t : TableDefinition} {before after : List ColumnDefinition} {c : ColumnDefinition} {x : Binary64}

/-- What a table is written with up to one of its columns can be read. -/
theorem legible_front (hname : isIdentifier t.name) (hcolumns : ∀ c ∈ before, isIdentifier c.name)
    (hdefaults : ∀ c ∈ before, ∀ d ∈ c.default?, d.Finite) : ∀ token ∈ t.front before, token.legible := by
  refine List.forall_mem_append.mpr ⟨by decide, List.forall_mem_cons.mpr ⟨hname, ?_⟩⟩
  refine List.forall_mem_cons.mpr ⟨rfl, List.forall_mem_flatMap.mpr fun c hc => ?_⟩
  exact List.forall_mem_append.mpr ⟨ColumnDefinition.legible_written (hcolumns c hc) (hdefaults c hc),
    List.forall_mem_singleton.mpr rfl⟩

/-- **A table with a double as a default that is no number is not well formed.** The columns before the
first one of this kind are read as they were written, and then something broken follows `DEFAULT`. -/
theorem not_wellFormed (hc : t.Checked) (ht : t.columns = before ++ c :: after)
    (hbefore : ∀ c ∈ before, ∀ d ∈ c.default?, d.Finite) (hd : c.default? = some (.real x))
    (hx : x.isFinite = false) : ¬ Sql.WellFormed (Sql.textOf t.written) := by
  rintro ⟨ts, hlex, hstatement⟩
  have hcolumns := hc.columns
  rw [ht, List.forall_mem_append, List.forall_mem_cons] at hcolumns
  have hlegible : ∀ token ∈ t.front before ++ (c.lead ++ [.word "DEFAULT"]), token.legible :=
    List.forall_mem_append.mpr ⟨legible_front hc.name hcolumns.1 hbefore,
      List.forall_mem_append.mpr ⟨c.legible_lead hcolumns.2.1, by decide⟩⟩
  have hwritten : t.written = (t.front before ++ (c.lead ++ [.word "DEFAULT"])) ++
      .number (realLayout.render x) :: t.back after := by
    have hmid := written_mid t before c after
    rw [← ht] at hmid
    rw [hmid, ColumnDefinition.written_eq, hd, DefaultValue.written, DefaultValue.token]
    simp only [List.append_assoc, List.cons_append, List.nil_append]
  obtain ⟨first, rest, broken, _, hchars, hgap, hread, hbroken⟩ := exists_broken hx
    ((Sql.ends_spacing (.number (realLayout.render x)) (t.back after)).resolve_left (by simp))
  have hrender : Sql.render (.number (realLayout.render x) :: t.back after) = first :: rest :=
    (Sql.render_cons _ _).trans hchars
  rw [hwritten] at hlex
  obtain ⟨more, rfl⟩ := Sql.exists_of_lex_append hlegible hrender hgap hread hlex
  have hneighbours : t.front before ++ (c.lead ++ [.word "DEFAULT"]) ++ broken :: more =
      (t.front before ++ c.lead) ++ .word "DEFAULT" :: broken :: more := by
    simp only [List.append_assoc, List.cons_append, List.nil_append]
  rw [hneighbours] at hstatement
  exact Sql.not_isStatement (fun h => h.number ⟨rfl, hbroken⟩) hstatement

/-- **The text of a checked table is well formed exactly if its defaults can be read.** -/
theorem wellFormed_iff (hc : t.Checked) : Sql.WellFormed (Sql.textOf t.written) ↔
    ∀ c ∈ t.columns, ∀ d ∈ c.default?, d.Finite := by
  classical
  refine ⟨fun h => ?_, fun h => ⟨_, Sql.lex_textOf (legible_written hc h), isStatement_written hc h⟩⟩
  cases hfind : t.columns.find? fun c => decide (¬ ∀ d ∈ c.default?, d.Finite) with
  | none => simpa using List.find?_eq_none.mp hfind
  | some c =>
      obtain ⟨hbad, before, after, ht, hbefore⟩ := List.find?_eq_some_iff_append.mp hfind
      obtain ⟨d, hd, x, rfl, hx⟩ : ∃ d ∈ c.default?, ∃ x, d = .real x ∧ ¬ x.isFinite := by
        simpa [DefaultValue.Finite] using hbad
      exact absurd h (not_wellFormed hc ht (by simpa using hbefore) hd (Bool.eq_false_iff.mpr hx))

end TableDefinition

/-- **The text of a checked index is well formed exactly if it has a column.** -/
theorem IndexDefinition.wellFormed_iff {table : String} {i : IndexDefinition} (ht : isIdentifier table)
    (hc : i.Checked) : Sql.WellFormed (Sql.textOf (i.written table)) ↔ i.columns ≠ [] :=
  ⟨fun h hnone => not_wellFormed ht hc hnone h,
    fun hne => ⟨_, Sql.lex_textOf (legible_written ht hc), isStatement_written ht hc hne⟩⟩

namespace Schema

variable {s : Schema} {texts : List String}

/-- **Which schemas have well-formed statements.** Of a schema that passes its checks, all statements are
well formed exactly if each index has a column and no default is a double that is no number. -/
theorem statements_wellFormed_iff (h : s.texts = .ok texts) : (∀ text ∈ texts, Sql.WellFormed text) ↔
    ∀ t ∈ s.tables, (∀ i ∈ t.indexes, i.columns ≠ []) ∧
      ∀ c ∈ t.columns, ∀ x, c.default? = some (.real x) → x.isFinite := by
  obtain ⟨ts, hts, rfl⟩ := map_eq_ok_iff.mp h
  obtain ⟨hc, rfl⟩ := (s.statements_eq_ok_iff ts).mp hts
  rw [List.forall_mem_map, List.forall_mem_flatMap]
  refine forall₂_congr fun t ht => ?_
  rw [TableDefinition.allWritten, List.forall_mem_cons, List.forall_mem_map,
    TableDefinition.wellFormed_iff (hc t ht).toChecked, and_comm]
  refine and_congr (forall₂_congr fun i hi => ?_) (forall₂_congr fun c hc => ?_)
  · exact IndexDefinition.wellFormed_iff (hc t ht).name ((hc t ht).indexes i hi)
  · exact ⟨fun h x hx => h _ hx x rfl, fun h d hd x hx => h x (hx ▸ hd)⟩

/-- A table called like a keyword, with a double, a text and a time as defaults, keys and an index. -/
def defaultsTable (x : Binary64) : TableDefinition where
  name := "DEFAULT"
  columns := [⟨"NaN", .real, [.notNull], some (.real x)⟩, ⟨"b", .text, [], some (.text "', c DEFAULT ")⟩,
    ⟨"c", .text, [], some .currentTimestamp⟩]
  primaryKey := ["NaN", "b"]
  foreignKeys := [⟨"b", "u", "DEFAULT", .setDefault, .cascade⟩]
  indexes := [⟨"i", ["NaN"], true⟩]

/-- All its statements are well formed, unless the double is no number. -/
theorem statements_wellFormed_iff_infinity :
    (∃ texts : List String, (Schema.mk [defaultsTable ⟨0x3FB999999999999A⟩]).texts = .ok texts ∧
      texts.length = 2 ∧ ∀ text ∈ texts, Sql.WellFormed text) ∧
    ∃ texts : List String, (Schema.mk [defaultsTable (.infinity true)]).texts = .ok texts ∧
      texts.length = 2 ∧ ¬ ∀ text ∈ texts, Sql.WellFormed text := by
  obtain ⟨texts, h, hlength⟩ : ∃ texts : List String,
      (Schema.mk [defaultsTable ⟨0x3FB999999999999A⟩]).texts = .ok texts ∧ texts.length = 2 :=
    ⟨_, rfl, rfl⟩
  obtain ⟨texts', h', hlength'⟩ : ∃ texts : List String,
      (Schema.mk [defaultsTable (.infinity true)]).texts = .ok texts ∧ texts.length = 2 :=
    ⟨_, rfl, rfl⟩
  refine ⟨⟨texts, h, hlength, (statements_wellFormed_iff h).mpr ?_⟩, texts', h', hlength', fun hall => ?_⟩
  · refine List.forall_mem_singleton.mpr ⟨List.forall_mem_singleton.mpr (by decide), ?_⟩
    intro c hc x hx
    simp only [defaultsTable, List.mem_cons, List.not_mem_nil, or_false] at hc
    rcases hc with rfl | rfl | rfl <;> cases hx
    decide
  · have hfinite := (statements_wellFormed_iff h').mp hall _ List.mem_cons_self
    exact absurd (hfinite.2 _ List.mem_cons_self _ rfl) (by decide)

/-- **An index without columns passes the checks** of its schema, and its statement is not well formed. -/
theorem statement_not_wellFormed_of_no_columns :
    ∃ texts : List String,
      (Schema.mk [⟨"t", [⟨"a", .integer, [], none⟩], [], [], [⟨"i", [], false⟩]⟩]).texts = .ok texts ∧
      texts = ["CREATE TABLE IF NOT EXISTS t (a INTEGER)", "CREATE INDEX IF NOT EXISTS i ON t ()"] ∧
      ¬ Sql.WellFormed "CREATE INDEX IF NOT EXISTS i ON t ()" := by
  refine ⟨_, rfl, by decide +kernel, ?_⟩
  have htext : Sql.textOf (IndexDefinition.written "t" ⟨"i", [], false⟩) =
      "CREATE INDEX IF NOT EXISTS i ON t ()" := by decide +kernel
  rw [← htext]
  exact IndexDefinition.not_wellFormed (by decide) ⟨by decide, by decide⟩ rfl

end Schema

end ScopedSql
