import ScopedSql.Proofs.Query.Meaning

/-!
# What statements are made of

Every token of a statement is a fixed word or sign, a name that was asked for and is a plain identifier,
a decimal number or a placeholder (`Meaning.known_statement`). No other text of a caller is part of
it, and all of it can be read (`Token.Known.plain`).
-/

namespace ScopedSql

open Sql (Token keywords)

namespace Sql

/-- The words that statements are written with. -/
def fixedWords : List String :=
  ["SELECT", "AS", "count", "FROM", "WHERE", "AND", "OR", "LIKE", "IN", "NOT", "ORDER", "BY", "ASC",
    "DESC", "LIMIT", "OFFSET", "INSERT", "INTO", "VALUES", "DEFAULT", "UPDATE", "SET", "DELETE"]

/-- The signs that statements are written with. -/
def fixedSigns : List String := ["=", "!=", ">", ">=", "<", "<="]

/-- **What a statement with some names is made of.** -/
inductive Token.Known (names : List String) : Token → Prop
  /-- A fixed word. -/
  | word {w : String} (h : w ∈ fixedWords) : Known names (.word w)
  /-- A fixed sign. -/
  | sign {s : String} (h : s ∈ fixedSigns) : Known names (.sign s)
  /-- A name that is a plain identifier. -/
  | name {n : String} (h : n ∈ names) (hn : isIdentifier n) : Known names (.word n)
  /-- A decimal number. -/
  | number (n : Nat) : Known names (.number (toString n))
  /-- The limit that stands for none. -/
  | unlimited : Known names (.number "-1")
  /-- The placeholder of a value of the filter. -/
  | filtered (n : Nat) : Known names (.placeholder (Clause.placeholder n))
  /-- The placeholder of an inserted column. -/
  | inserted {c : String} (h : c ∈ names) (hc : isIdentifier c) :
      Known names (.placeholder (Statement.insertedColumn c))
  /-- The placeholder of an updated column. -/
  | updated {c : String} (h : c ∈ names) (hc : isIdentifier c) :
      Known names (.placeholder (Statement.updatedColumn c))
  /-- A parenthesis opens. -/
  | opening : Known names .opening
  /-- A parenthesis closes. -/
  | closing : Known names .closing
  /-- A comma. -/
  | comma : Known names .comma
  /-- All columns. -/
  | star : Known names .star
  /-- The number of rows. -/
  | countAll : Known names .countAll

end Sql

/-! ### Known tokens can be read -/

/-- All characters of an identifier may follow in an identifier. -/
theorem isIdentifierRest_of_isIdentifier {name : String} (h : isIdentifier name) :
    ∀ c ∈ name.toList, isIdentifierRest c := by
  unfold isIdentifier at h
  split at h
  · nomatch h
  case h_2 c rest hname =>
    rw [Bool.and_eq_true, List.all_eq_true] at h
    rw [hname]
    refine List.forall_mem_cons.mpr ⟨?_, h.2⟩
    have hstart := h.1
    simp only [isIdentifierStart, Bool.or_eq_true] at hstart
    simp only [isIdentifierRest, Char.isAlphanum, Bool.or_eq_true]
    exact hstart.imp_left .inl

/-- Behind its mark the placeholder of a column has the characters of an identifier. -/
theorem plain_placeholder {mark column : String} (front : List Char)
    (hmark : mark.toList = '@' :: front) (hfront : front.all isIdentifierRest)
    (hc : isIdentifier column) : (Token.placeholder (mark ++ column)).plain := by
  have hchars : (mark ++ column).toList = '@' :: (front ++ column.toList) := by
    rw [String.toList_append, hmark, List.cons_append]
  simp only [Token.plain, hchars, List.all_append, hfront, Bool.true_and, List.all_eq_true]
  exact isIdentifierRest_of_isIdentifier hc

/-- A decimal number can be read. -/
theorem plain_number (n : Nat) : (Token.number (toString n)).plain := by
  have hdigits : ∀ c ∈ Nat.toDigits 10 n, c.isDigit := fun c hc =>
    Nat.isDigit_of_mem_toDigits (by decide) (by decide) hc
  have hchars : (toString n).toList = Nat.toDigits 10 n := Nat.toList_repr
  rw [Token.plain, hchars]
  cases hn : Nat.toDigits 10 n with
  | nil => exact absurd hn Nat.toDigits_ne_nil
  | cons c cs =>
      rw [hn, List.forall_mem_cons] at hdigits
      simp only [hdigits.1, Bool.true_or, Bool.true_and, List.all_eq_true]
      intro d hd
      simp [Sql.isNumberRest, hdigits.2 d hd]

/-- **Known tokens are read back as they are written.** -/
theorem Sql.Token.Known.plain {names : List String} {t : Token} (h : t.Known names) : t.plain := by
  cases h with
  | word h =>
      have hall : ∀ w ∈ fixedWords, (Token.word w).plain := by decide
      exact hall _ h
  | sign h =>
      have hall : ∀ s ∈ fixedSigns, (Token.sign s).plain := by decide
      exact hall _ h
  | name _ hn => exact hn
  | number n => exact plain_number n
  | unlimited => decide
  | filtered n => exact Clause.placeholder_plain n
  | inserted _ hc => exact plain_placeholder "col_".toList (by decide) (by decide) hc
  | updated _ hc => exact plain_placeholder "set_".toList (by decide) (by decide) hc
  | _ => rfl

/-! ### The parts of a statement -/

namespace Sql

variable {names : List String}

/-- Fixed words are known. -/
theorem known_keywords (ws : List String) (h : ∀ w ∈ ws, w ∈ fixedWords) :
    ∀ t ∈ keywords ws, t.Known names := by
  rw [keywords, List.forall_mem_map]
  exact fun w hw => .word (h w hw)

/-- Known parts with commas between them are known. -/
theorem known_commaSeparated {α : Type} {part : α → List Token} {xs : List α}
    (h : ∀ x ∈ xs, ∀ t ∈ part x, t.Known names) :
    ∀ t ∈ commaSeparated (xs.map part), t.Known names := by
  refine forall_separated .comma ?_
  rw [List.forall_mem_map]
  exact h

/-- Known tokens in parentheses are known. -/
theorem known_parenthesized {ts : List Token} (h : ∀ t ∈ ts, t.Known names) :
    ∀ t ∈ parenthesized ts, t.Known names :=
  forall_parenthesized .opening .closing h

end Sql

namespace Meaning

variable {names : List String}

/-- The window of rows is made of known tokens. -/
theorem known_window (limit offset : Option Nat) :
    ∀ t ∈ Statement.window limit offset, t.Known names := by
  have hlimit : (Token.word "LIMIT").Known names := .word (by decide)
  have hoffset : (Token.word "OFFSET").Known names := .word (by decide)
  cases limit <;> cases offset <;> simp only [Statement.window, List.forall_mem_cons]
  · exact nofun
  · exact ⟨hlimit, .unlimited, hoffset, .number _, nofun⟩
  · exact ⟨hlimit, .number _, nofun⟩
  · exact ⟨hlimit, .number _, hoffset, .number _, nofun⟩

/-- A projection is made of known tokens when its columns are. -/
theorem known_projected {columns : List String} (h : ∀ c ∈ columns, (Token.word c).Known names) :
    ∀ t ∈ projected columns, t.Known names := by
  cases columns with
  | nil => exact List.forall_mem_singleton.mpr .star
  | cons c cs => exact Sql.known_commaSeparated fun c hc => List.forall_mem_singleton.mpr (h c hc)

/-- An ordering is made of known tokens when its columns are. -/
theorem known_ordered {terms : List OrderTerm}
    (h : ∀ c ∈ terms.map OrderTerm.column, (Token.word c).Known names) :
    ∀ t ∈ ordered terms, t.Known names := by
  rw [List.forall_mem_map] at h
  cases terms with
  | nil => exact nofun
  | cons u us =>
      refine List.forall_mem_append.mpr ⟨Sql.known_keywords _ (by decide), ?_⟩
      refine Sql.known_commaSeparated fun t ht => List.forall_mem_cons.mpr ⟨h t ht, ?_⟩
      refine List.forall_mem_singleton.mpr (.word ?_)
      cases t.ascending <;> decide

/-- **The clause of a filter is known** with the names of its columns. -/
theorem known_ofNorm {filter : Option NormalForm}
    (hmem : ∀ c ∈ NormalForm.allComparisons filter.toList, c.column ∈ names)
    (h : NormalForm.Readable (NormalForm.allComparisons filter.toList)) :
    ∀ t ∈ (Clause.ofNorm filter).tokens, t.Known names := by
  cases filter with
  | none => exact nofun
  | some n =>
      rw [Option.toList_some, NormalForm.allComparisons, NormalForm.allComparisons,
        List.append_nil] at hmem h
      refine List.forall_mem_cons.mpr ⟨.word (by decide), n.forall_tokens ?_ 1⟩
      exact
        { opening := .opening
          closing := .closing
          comma := .comma
          connector := fun c => .word (by cases c <;> decide)
          placeholder := .filtered
          column := fun c hc => .name (hmem c hc) (h c hc).1.column
          operator := fun c hc => by
            have ho := (h c hc).2
            cases hop : c.operator with
            | other => rw [hop] at ho; cases ho
            | like => exact List.forall_mem_singleton.mpr (.word (by decide))
            | isIn => exact List.forall_mem_singleton.mpr (.word (by decide))
            | notIn => exact Sql.known_keywords ["NOT", "IN"] (by decide)
            | _ => exact List.forall_mem_singleton.mpr (.sign (by decide)) }

/-- **Nothing else is part of a statement** than fixed words and signs, names that were asked for and are
plain identifiers, decimal numbers and placeholders. -/
theorem known_statement {m : Meaning} (h : m.Sendable) :
    ∀ t ∈ m.statement.tokens, t.Known m.names := by
  have hmem : ∀ n ∈ m.frameNames, n ∈ m.names := fun n hn => List.mem_append_left _ hn
  have hframe : ∀ n ∈ m.frameNames, (Token.word n).Known m.names := fun n hn =>
    .name (hmem n hn) (h.names n hn)
  have hfilter : ∀ t ∈ (Clause.ofNorm m.filter).tokens, t.Known m.names :=
    known_ofNorm (fun c hc => List.mem_append_right _ (List.mem_map_of_mem hc)) h.filter
  have hfixed : ∀ ws : List String, (∀ w ∈ ws, w ∈ Sql.fixedWords) →
      ∀ t ∈ keywords ws, t.Known m.names := Sql.known_keywords
  have hnames := h.names
  generalize m.names = names at *
  cases m with
  | select table columns filter orderBy limit offset =>
      simp only [frameNames, List.cons_append, List.forall_mem_cons, List.forall_mem_append] at hframe
      obtain ⟨htable, hcolumns, horder⟩ := hframe
      simp only [statement, List.forall_mem_append]
      refine ⟨⟨⟨⟨⟨hfixed ["SELECT"] (by decide), known_projected hcolumns⟩, ?_⟩, hfilter⟩,
        known_ordered horder⟩, known_window limit offset⟩
      exact List.forall_mem_cons.mpr ⟨.word (by decide), List.forall_mem_singleton.mpr htable⟩
  | count table filter =>
      have htable := List.forall_mem_singleton.mp hframe
      refine List.forall_mem_append.mpr ⟨?_, hfilter⟩
      simp only [List.forall_mem_cons]
      exact ⟨.word (by decide), .countAll, .word (by decide), .word (by decide), .word (by decide),
        htable, List.forall_mem_nil _⟩
  | insert table row =>
      obtain ⟨htable, hcolumns⟩ := List.forall_mem_cons.mp hframe
      have hinto := hfixed ["INSERT", "INTO"] (by decide)
      have htable : ∀ t ∈ [Token.word table], t.Known names := List.forall_mem_singleton.mpr htable
      rw [statement]
      split <;> simp only [List.forall_mem_append]
      · exact ⟨⟨hinto, htable⟩, hfixed _ (by decide)⟩
      · refine ⟨⟨⟨⟨hinto, htable⟩, Sql.known_parenthesized ?_⟩, ?_⟩, Sql.known_parenthesized ?_⟩
        · exact Sql.known_commaSeparated fun c hc =>
            List.forall_mem_singleton.mpr (hcolumns c hc)
        · exact List.forall_mem_singleton.mpr (.word (by decide))
        · refine Sql.known_commaSeparated fun c hc => List.forall_mem_singleton.mpr ?_
          exact .inserted (hmem c (List.mem_cons_of_mem _ hc)) (hnames c (List.mem_cons_of_mem _ hc))
  | update table row filter =>
      obtain ⟨htable, hcolumns⟩ := List.forall_mem_cons.mp hframe
      simp only [statement, List.forall_mem_append]
      refine ⟨⟨?_, Sql.known_commaSeparated fun c hc => ?_⟩, hfilter⟩
      · simp only [List.forall_mem_cons]
        exact ⟨.word (by decide), htable, .word (by decide), List.forall_mem_nil _⟩
      · simp only [List.forall_mem_cons]
        refine ⟨hcolumns c hc, .sign (by decide), ?_, List.forall_mem_nil _⟩
        exact .updated (hmem c (List.mem_cons_of_mem _ hc)) (hnames c (List.mem_cons_of_mem _ hc))
  | delete table filter =>
      have htable := List.forall_mem_singleton.mp hframe
      refine List.forall_mem_append.mpr ⟨?_, hfilter⟩
      simp only [List.forall_mem_cons]
      exact ⟨.word (by decide), .word (by decide), htable, List.forall_mem_nil _⟩

end Meaning

end ScopedSql
