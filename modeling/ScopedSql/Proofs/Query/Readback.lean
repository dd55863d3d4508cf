import ScopedSql.Proofs.Query.Vocabulary

/-!
# Statements are read back

`Meaning.read?` reads the text of a statement, puts the bound values in the places of the placeholders
and returns what the statement asks for. Columns and tables may be called like keywords, for the
reader knows keywords by their place. Each part of a statement is read up to what follows it, and the
parts are put together in `Meaning.readTokens?_statement`. Hence `Request.plan_denotes`: two requests
send the same statement exactly if they have the same meaning.
-/

namespace ScopedSql

open Sql (Token keywords commaSeparated)

/-! ### A reader for statements -/

namespace Meaning

/-- The bound that a decimal number stands for; -1 stands for none. -/
def numberBound (text : String) : Option Nat :=
  if text = "-1" then none else some (Nat.ofDigitChars 10 text.toList 0)

/-- The window of rows, up to the end of a query. -/
def readWindow? : List Token → Option (Option Nat × Option Nat)
  | [] => some (none, none)
  | [.word "LIMIT", .number limit] => some (numberBound limit, none)
  | [.word "LIMIT", .number limit, .word "OFFSET", .number offset] =>
      some (numberBound limit, numberBound offset)
  | _ => none

/-- The filter in front of some tokens, with values in the places of its placeholders. -/
def readFilter? (b : Bindings) (ts : List Token) : Option (Option NormalForm × List Token) :=
  (Sql.readWhere? ts).bind fun (c, rest) =>
    (c.mapM (Sql.Condition.denote? b)).map fun n => (n, rest)

/-- The filter that some tokens are. -/
def readLastFilter? (b : Bindings) (ts : List Token) : Option (Option NormalForm) :=
  match readFilter? b ts with
  | some (filter, []) => some filter
  | _ => none

/-- The row of columns and the placeholders of their values. -/
def readRow? (b : Bindings) (columns : List (String × String)) : Option Row :=
  (columns.mapM fun c => (b.get? c.2).map fun v => (c.1, v)).map NameMap.ofList

/-- A query after `SELECT`. -/
def readSelect? (b : Bindings) (ts : List Token) : Option Meaning :=
  match Sql.readProjection? ts with
  | some (.count _, .word "FROM" :: .word table :: ts) => (readLastFilter? b ts).map (.count table)
  | some (projection, .word "FROM" :: .word table :: ts) => do
      let (filter, ts) ← readFilter? b ts
      let (orderBy, ts) ← Sql.readOrder? ts
      let (limit, offset) ← readWindow? ts
      some (.select table projection.names filter orderBy limit offset)
  | _ => none

/-- The row of an insertion after its table. -/
def readInserted? (b : Bindings) : List Token → Option Row
  | [.word "DEFAULT", .word "VALUES"] => some NameMap.empty
  | ts =>
      match Sql.readNameList? ts with
      | some (columns, .word "VALUES" :: .opening :: ts) =>
          match Sql.readPlaceholders? ts with
          | some (placeholders, []) => readRow? b (columns.zip placeholders)
          | _ => none
      | _ => none

/-- The meaning of a list of tokens, all of which it takes. -/
def readTokens? (b : Bindings) : List Token → Option Meaning
  | .word "SELECT" :: ts => readSelect? b ts
  | .word "INSERT" :: .word "INTO" :: .word table :: ts => (readInserted? b ts).map (.insert table)
  | .word "UPDATE" :: .word table :: .word "SET" :: ts => do
      let (columns, ts) ← Sql.readAssignments? ts
      let row ← readRow? b columns
      (readLastFilter? b ts).map (.update table row)
  | .word "DELETE" :: .word "FROM" :: .word table :: ts =>
      (readLastFilter? b ts).map (.delete table)
  | _ => none

/-- **Reads a statement** with its bindings: what it asks for. -/
def read? (text : String) (b : Bindings) : Option Meaning :=
  (Sql.lex text.toList).bind (readTokens? b)

end Meaning

/-! ### Reading lists -/

namespace Sql

variable {rest : List Token}

/-- In a list with commas one stands behind each part but the last. -/
theorem commaSeparated_map_cons {α : Type} (part : α → List Token) (x y : α) (xs : List α)
    (rest : List Token) : commaSeparated ((x :: y :: xs).map part) ++ rest =
      part x ++ .comma :: (commaSeparated ((y :: xs).map part) ++ rest) := by
  rw [List.map_cons, List.map_cons, Sql.commaSeparated_cons_cons, List.append_assoc]
  rfl

/-- A list of names is read up to its end. -/
theorem readWords?_eq {names : List String} (hne : names ≠ []) (hrest : rest.head? ≠ some .comma) :
    readWords? (commaSeparated (names.map fun n => [.word n]) ++ rest) = some (names, rest) := by
  induction names with
  | nil => exact absurd rfl hne
  | cons n names ih =>
      cases names with
      | nil =>
          cases rest with
          | nil => rfl
          | cons t rest =>
              cases t with
              | comma => exact absurd rfl hrest
              | _ => rfl
      | cons m names =>
          rw [commaSeparated_map_cons]
          have hmore := ih (List.cons_ne_nil _ _)
          generalize commaSeparated ((m :: names).map fun n => [.word n]) ++ rest = ts at hmore ⊢
          simp [readWords?, hmore]

/-- Names in parentheses are read. -/
theorem readNameList?_eq {names : List String} (hne : names ≠ []) (rest : List Token) :
    readNameList? (nameList names ++ rest) = some (names, rest) := by
  have hwords : readWords? (commaSeparated (names.map fun n => [.word n]) ++ .closing :: rest) =
      some (names, .closing :: rest) := readWords?_eq hne (by simp)
  simp [readNameList?, nameList, parenthesized, expect?, hwords]

/-- What a query reads is read up to `FROM`. -/
theorem readProjection?_projected (columns : List String) (rest : List Token) :
    ∃ projection, readProjection? (Meaning.projected columns ++ .word "FROM" :: rest) =
        some (projection, .word "FROM" :: rest) ∧
      projection.names = columns ∧ ∀ name, projection ≠ .count name := by
  cases columns with
  | nil => exact ⟨.all, rfl, rfl, nofun⟩
  | cons c cs =>
      have hwords : readWords? (Meaning.projected (c :: cs) ++ .word "FROM" :: rest) =
          some (c :: cs, .word "FROM" :: rest) := readWords?_eq (List.cons_ne_nil c cs) (by simp)
      have hfront : ∃ ts, Meaning.projected (c :: cs) ++ .word "FROM" :: rest = .word c :: ts := by
        cases cs <;> exact ⟨_, rfl⟩
      obtain ⟨ts, hts⟩ := hfront
      have hread : readWords? (.word c :: ts) = some (c :: cs, .word "FROM" :: rest) := hts ▸ hwords
      refine ⟨.columns (c :: cs), ?_, rfl, nofun⟩
      rw [hts]
      simp [readProjection?, hread]

/-- The terms of an order are read up to their end. -/
theorem readOrderTerms?_eq {terms : List OrderTerm} (hne : terms ≠ [])
    (hrest : rest.head? ≠ some .comma) :
    readOrderTerms? (commaSeparated (terms.map Meaning.term) ++ rest) = some (terms, rest) := by
  induction terms with
  | nil => exact absurd rfl hne
  | cons t terms ih =>
      obtain ⟨column, ascending⟩ := t
      cases terms with
      | nil =>
          cases rest with
          | nil => cases ascending <;> rfl
          | cons t rest =>
              cases t with
              | comma => exact absurd rfl hrest
              | _ => cases ascending <;> rfl
      | cons u terms =>
          rw [commaSeparated_map_cons]
          have hmore := ih (List.cons_ne_nil _ _)
          generalize commaSeparated ((u :: terms).map Meaning.term) ++ rest = ts at hmore ⊢
          cases ascending <;> simp [Meaning.term, readOrderTerms?, hmore]

/-- An order is read up to what follows it. -/
theorem readOrder?_ordered {terms : List OrderTerm} (hrest : rest.head? ≠ some .comma)
    (horder : rest.head? ≠ some (.word "ORDER")) :
    readOrder? (Meaning.ordered terms ++ rest) = some (terms, rest) := by
  cases terms with
  | nil =>
      change readOrder? rest = _
      unfold readOrder?
      split
      · exact absurd rfl horder
      · rfl
  | cons t terms => exact readOrderTerms?_eq (List.cons_ne_nil _ _) hrest

/-- The assignments of an update are read up to their end. -/
theorem readAssignments?_eq {columns : List String} (placeholder : String → String)
    (hne : columns ≠ []) (hrest : rest.head? ≠ some .comma) :
    readAssignments? (commaSeparated (columns.map fun c =>
        [.word c, .sign "=", .placeholder (placeholder c)]) ++ rest) =
      some (columns.map fun c => (c, placeholder c), rest) := by
  induction columns with
  | nil => exact absurd rfl hne
  | cons c columns ih =>
      cases columns with
      | nil =>
          cases rest with
          | nil => rfl
          | cons t rest =>
              cases t with
              | comma => exact absurd rfl hrest
              | _ => rfl
      | cons d columns =>
          rw [commaSeparated_map_cons]
          have hmore := ih (List.cons_ne_nil _ _)
          generalize commaSeparated ((d :: columns).map fun c =>
            [.word c, .sign "=", .placeholder (placeholder c)]) ++ rest = ts at hmore ⊢
          simp [readAssignments?, hmore]

end Sql

namespace Meaning

variable {b : Bindings}

/-! ### Reading the parts of a statement -/

/-- A number is read back as a bound. -/
theorem numberBound_toString (n : Nat) : numberBound (toString n) = some n := by
  have hchars : (toString n).toList = Nat.toDigits 10 n := Nat.toList_repr
  have hne : toString n ≠ "-1" := by
    intro h
    rw [h] at hchars
    have hminus : '-' ∈ Nat.toDigits 10 n := hchars ▸ List.mem_cons_self
    exact absurd (Nat.isDigit_of_mem_toDigits (by decide) (by decide) hminus) (by decide)
  rw [numberBound, if_neg hne, hchars, Nat.ofDigitChars_toDigits (by decide) (by decide)]

/-- **A window is read back**, also where the limit stands for none. -/
theorem readWindow?_window (limit offset : Option Nat) :
    readWindow? (Statement.window limit offset) = some (limit, offset) := by
  have hnone : numberBound "-1" = none := rfl
  cases limit <;> cases offset <;>
    simp only [Statement.window, readWindow?, numberBound_toString, hnone]

/-- What follows a window is neither a comma nor a clause nor an order. -/
theorem head?_window (limit offset : Option Nat) :
    ∀ t ∈ (Statement.window limit offset).head?, t = .word "LIMIT" := by
  cases limit <;> cases offset <;> simp [Statement.window]

/-- What follows a filter is an order or a window, if anything. -/
theorem head?_ordered_append (terms : List OrderTerm) (limit offset : Option Nat) :
    ∀ t ∈ (ordered terms ++ Statement.window limit offset).head?,
      t = .word "ORDER" ∨ t = .word "LIMIT" := by
  cases terms with
  | nil => exact fun t ht => .inr (head?_window limit offset t ht)
  | cons u us => simp [ordered, keywords]

/-- **A row is read back** from the placeholders of its columns. -/
theorem readRow?_eq {row : Row} {placeholder : String → String}
    (hb : ∀ c, b.get? (placeholder c) = row.get? c) :
    readRow? b (row.names.map fun c => (c, placeholder c)) = some row := by
  have hentries : ∀ entries : List (String × Value), (∀ e ∈ entries, row.get? e.1 = some e.2) →
      (entries.map fun e => (e.1, placeholder e.1)).mapM
        (fun c => (b.get? c.2).map fun v => (c.1, v)) = some entries := by
    intro entries h
    induction entries with
    | nil => rfl
    | cons e rest ih =>
        rw [List.forall_mem_cons] at h
        simp [List.mapM_cons, hb, h.1, ih h.2]
  have hnames : (row.names.map fun c => (c, placeholder c)) =
      row.entries.map fun e => (e.1, placeholder e.1) := by
    rw [NameMap.names, List.map_map]
    rfl
  rw [readRow?, hnames, hentries _ fun e he => NameMap.mem_entries_iff.mp he, Option.map_some,
    NameMap.ofList_entries]

/-- **A filter is read back** in front of what is no clause. -/
theorem readFilter?_ofNorm {filter : Option NormalForm} (rest : List Token)
    (hr : NormalForm.Readable (NormalForm.allComparisons filter.toList))
    (hb : Binds b 1 (NormalForm.allValues filter.toList))
    (hrest : rest.head? ≠ some (.word "WHERE")) :
    readFilter? b ((Clause.ofNorm filter).tokens ++ rest) = some (filter, rest) := by
  obtain ⟨c, hread, hdenote⟩ := Clause.exists_readWhere? rest hr hb hrest
  simp only [readFilter?, hread, Option.bind_some, hdenote, Option.map_some]

/-- A filter at the end of a statement is read back. -/
theorem readLastFilter?_ofNorm {filter : Option NormalForm}
    (hr : NormalForm.Readable (NormalForm.allComparisons filter.toList))
    (hb : Binds b 1 (NormalForm.allValues filter.toList)) :
    readLastFilter? b (Clause.ofNorm filter).tokens = some filter := by
  have hread := readFilter?_ofNorm [] hr hb nofun
  rw [List.append_nil] at hread
  rw [readLastFilter?, hread]

/-! ### What a statement binds -/

/-- Placeholders of columns are told apart by the columns. -/
theorem append_injective (mark : String) : Function.Injective fun c => mark ++ c := fun _ _ h =>
  (String.append_right_inj mark).mp h

/-- A row binds the placeholders of its columns to its values. -/
theorem get?_bound {placeholder : String → String} (hinj : Function.Injective placeholder) (row : Row)
    (c : String) : (bound placeholder row).get? (placeholder c) = row.get? c :=
  NameMap.get?_ofList_rename hinj row c

/-- The values of a filter are bound, also beside those of a row. -/
theorem binds_extend (b : Bindings) (filter : Option NormalForm) :
    Binds (b.extend (Clause.ofNorm filter).bindings) 1 (NormalForm.allValues filter.toList) := by
  intro i v hv
  rw [NameMap.get?_extend, Clause.bindings_ofNorm, binds_bound 1 _ i v hv]
  rfl

/-- Placeholders of updated columns are not those of a filter: the marks differ in their second
letter. -/
theorem updatedColumn_ne_placeholder (c : String) (n : Nat) :
    Statement.updatedColumn c ≠ Clause.placeholder n := by
  intro h
  have hchars := congrArg String.toList h
  rw [Clause.toList_placeholder, Statement.updatedColumn, String.toList_append] at hchars
  exact absurd (congrArg (·[1]?) hchars) (by simp)

/-- A filter does not bind the placeholders of an update. -/
theorem get?_ofNorm_updatedColumn (filter : Option NormalForm) (c : String) :
    (Clause.ofNorm filter).bindings.get? (Statement.updatedColumn c) = none := by
  rw [Clause.bindings_ofNorm, Option.eq_none_iff_forall_not_mem]
  intro v hv
  obtain ⟨i, -, hname⟩ := Clause.get?_ofList_bound.mp hv
  exact updatedColumn_ne_placeholder c _ hname

/-! ### Reading statements -/

section Statements

variable {table : String} {filter : Option NormalForm} {row : Row}

/-- A query is read back. -/
theorem readTokens?_select {columns : List String} {orderBy : List OrderTerm}
    {limit offset : Option Nat} (hr : NormalForm.Readable (NormalForm.allComparisons filter.toList))
    (hb : Binds b 1 (NormalForm.allValues filter.toList)) :
    readTokens? b (select table columns filter orderBy limit offset).statement.tokens =
      some (select table columns filter orderBy limit offset) := by
  have htokens : (select table columns filter orderBy limit offset).statement.tokens =
      .word "SELECT" :: (projected columns ++ .word "FROM" :: .word table ::
        ((Clause.ofNorm filter).tokens ++ (ordered orderBy ++ Statement.window limit offset))) := by
    simp [statement]
  have hhead := head?_ordered_append orderBy limit offset
  have hwindow := head?_window limit offset
  obtain ⟨projection, hprojection, rfl, hcount⟩ := Sql.readProjection?_projected columns
    (.word table :: ((Clause.ofNorm filter).tokens ++
      (ordered orderBy ++ Statement.window limit offset)))
  have hfilter := readFilter?_ofNorm (ordered orderBy ++ Statement.window limit offset) hr hb
    fun h => by simpa using hhead _ h
  have horder : Sql.readOrder? (ordered orderBy ++ Statement.window limit offset) =
      some (orderBy, Statement.window limit offset) :=
    Sql.readOrder?_ordered (fun h => by simpa using hwindow _ h) fun h => by simpa using hwindow _ h
  rw [htokens, readTokens?, readSelect?, hprojection]
  cases projection with
  | count name => exact absurd rfl (hcount name)
  | _ => simp [hfilter, horder, readWindow?_window]

/-- A count is read back. -/
theorem readTokens?_count (hr : NormalForm.Readable (NormalForm.allComparisons filter.toList))
    (hb : Binds b 1 (NormalForm.allValues filter.toList)) :
    readTokens? b (count table filter).statement.tokens = some (count table filter) := by
  have hfilter := readLastFilter?_ofNorm hr hb
  simp [statement, Statement.count, readTokens?, readSelect?, Sql.readProjection?, hfilter]

/-- An insertion is read back. -/
theorem readTokens?_insert
    (hb : row.isEmpty = false → ∀ c, b.get? (Statement.insertedColumn c) = row.get? c) :
    readTokens? b (insert table row).statement.tokens = some (insert table row) := by
  rw [statement]
  cases hempty : row.isEmpty with
  | true =>
      have hrow : row = NameMap.empty := NameMap.eq_empty_of_isEmpty hempty
      rw [if_pos rfl, hrow]
      rfl
  | false =>
      have hnames : row.names ≠ [] := NameMap.names_ne_nil hempty
      rw [if_neg Bool.false_ne_true]
      have hvalues := Sql.readPlaceholders?_eq (row.names.map Statement.insertedColumn) []
      rw [List.map_map] at hvalues
      have hlist := Sql.readNameList?_eq hnames (.word "VALUES" :: .opening ::
        (commaSeparated (row.names.map fun c => [.placeholder (Statement.insertedColumn c)]) ++
          [.closing]))
      have hpairs : row.names.zip (row.names.map Statement.insertedColumn) =
          row.names.map fun c => (c, Statement.insertedColumn c) := List.map_prod_left_eq_zip.symm
      have hread : readInserted? b (Sql.nameList row.names ++ .word "VALUES" :: .opening ::
          (commaSeparated (row.names.map fun c => [.placeholder (Statement.insertedColumn c)]) ++
            [.closing])) = some row := by
        rw [readInserted?, hlist]
        · simp only [Function.comp_def] at hvalues
          simp only [hvalues, hpairs, readRow?_eq (hb hempty)]
        · -- a list of names begins with a parenthesis
          intro hbare
          cases (List.cons.inj hbare).1
      simp [keywords, Sql.parenthesized, readTokens?, hread]

/-- An update is read back. -/
theorem readTokens?_update (hr : NormalForm.Readable (NormalForm.allComparisons filter.toList))
    (hb : Binds b 1 (NormalForm.allValues filter.toList)) (hsets : row.isEmpty = false)
    (hrow : ∀ c, b.get? (Statement.updatedColumn c) = row.get? c) :
    readTokens? b (update table row filter).statement.tokens = some (update table row filter) := by
  have hfilter := readLastFilter?_ofNorm hr hb
  have hcomma : (Clause.ofNorm filter).tokens.head? ≠ some .comma := by
    cases filter <;> simp [Clause.ofNorm, Clause.nothing]
  have hcolumns := Sql.readAssignments?_eq Statement.updatedColumn (NameMap.names_ne_nil hsets) hcomma
  simp [statement, readTokens?, hcolumns, readRow?_eq hrow, hfilter]

/-- A removal is read back. -/
theorem readTokens?_delete (hr : NormalForm.Readable (NormalForm.allComparisons filter.toList))
    (hb : Binds b 1 (NormalForm.allValues filter.toList)) :
    readTokens? b (delete table filter).statement.tokens = some (delete table filter) := by
  have hfilter := readLastFilter?_ofNorm hr hb
  simp [statement, Statement.delete, readTokens?, hfilter]

end Statements

/-- **A statement is read back**: its tokens and bindings give what it asks for. -/
theorem readTokens?_statement {m : Meaning} (h : m.Sendable) :
    readTokens? m.statement.bindings m.statement.tokens = some m := by
  cases m with
  | select table columns filter orderBy limit offset =>
      exact readTokens?_select h.filter (Clause.binds_ofNorm filter)
  | count table filter => exact readTokens?_count h.filter (Clause.binds_ofNorm filter)
  | insert table row =>
      refine readTokens?_insert fun hempty c => ?_
      rw [statement, if_neg (Bool.eq_false_iff.mp hempty)]
      exact get?_bound (append_injective _) row c
  | update table row filter =>
      refine readTokens?_update h.filter (binds_extend _ filter) (h.sets table row filter rfl)
        fun c => ?_
      rw [statement, NameMap.get?_extend, get?_ofNorm_updatedColumn, Option.none_or]
      exact get?_bound (append_injective _) row c
  | delete table filter => exact readTokens?_delete h.filter (Clause.binds_ofNorm filter)

/-- The text of a statement is read as its tokens. -/
theorem lex_statement {m : Meaning} (h : m.Sendable) :
    Sql.lex m.statement.text.toList = some m.statement.tokens :=
  Sql.lex_textOf_of_plain fun t ht => (known_statement h t ht).plain

/-- **A meaning is read back** from the text and the bindings of its statement. -/
theorem read?_statement {m : Meaning} (h : m.Sendable) :
    read? m.statement.text m.statement.bindings = some m := by
  rw [read?, lex_statement h, Option.bind_some, readTokens?_statement h]

end Meaning

/-! ### Requests are read back -/

namespace Request

/-- **A statement denotes what was asked for**, whatever tables and columns are called. The meaning of
a request is read off the text and the bindings of its statement. Two requests send the same
text with the same bindings exactly if they have the same meaning. And the text is made of fixed
words and signs, of the names that were asked for, all plain identifiers, of decimal numbers and of
placeholders, and of nothing else. -/
theorem plan_denotes {t u : Table} {r s : Request} {a b : Plan} (ht : isIdentifier t.name)
    (hu : isIdentifier u.name) (hr : r.BuiltIn) (hs : s.BuiltIn) (ha : r.plan t = .ok a)
    (hb : s.plan u = .ok b) :
    Meaning.read? a.statement.text a.statement.bindings = some (r.meaning t) ∧
      (a.statement.text = b.statement.text ∧ a.statement.bindings = b.statement.bindings ↔
        r.meaning t = s.meaning u) ∧
      Sql.lex a.statement.text.toList = some a.statement.tokens ∧
      ∀ token ∈ a.statement.tokens, token.Known (r.meaning t).names := by
  obtain ⟨hsend, hstatement⟩ := plan_eq_ok ht hr ha
  obtain ⟨hsend', hstatement'⟩ := plan_eq_ok hu hs hb
  rw [hstatement, hstatement']
  have hread := Meaning.read?_statement hsend
  have hread' := Meaning.read?_statement hsend'
  refine ⟨hread, ⟨fun h => ?_, fun h => ?_⟩, Meaning.lex_statement hsend,
    Meaning.known_statement hsend⟩
  · rw [h.1, h.2, hread'] at hread
    exact (Option.some.inj hread).symm
  · rw [h]
    exact ⟨rfl, rfl⟩

/-- A read of columns and of a table that are called like keywords: no column list of its own, the
limit that stands for none, and a filter with a group that compares nothing. The same is sent where
the table leaves the columns open and the call names them. -/
theorem plan_denotes_keywords :
    ∃ a b : Plan,
      (Request.select (some (.group .or [.comparison "WHERE" .eq (.scalar .null), .group .and []]))
          { orderBy := [⟨"DESC", true⟩], offset := some 0 }).plan
        ⟨"FROM", { columns := some ["FROM", "ORDER"] }⟩ = .ok a ∧
      (Request.select (some (.group .and [.comparison "WHERE" .eq (.scalar .null)]))
          { columns := some ["FROM", "ORDER"] }).plan
        ⟨"FROM", { orderBy := [⟨"DESC", true⟩], offset := some 0 }⟩ = .ok b ∧
      a.statement.text =
        "SELECT FROM, ORDER FROM FROM WHERE (WHERE = @whr1) ORDER BY DESC ASC LIMIT -1 OFFSET 0" ∧
      a.statement.text = b.statement.text ∧ a.statement.bindings = b.statement.bindings := by
  refine ⟨_, _, rfl, rfl, by decide +kernel, ?_⟩
  refine (plan_denotes
    (r := .select (some (.group .or [.comparison "WHERE" .eq (.scalar .null), .group .and []]))
      { orderBy := [⟨"DESC", true⟩], offset := some 0 })
    (s := .select (some (.group .and [.comparison "WHERE" .eq (.scalar .null)]))
      { columns := some ["FROM", "ORDER"] })
    (t := ⟨"FROM", { columns := some ["FROM", "ORDER"] }⟩)
    (u := ⟨"FROM", { orderBy := [⟨"DESC", true⟩], offset := some 0 }⟩)
    (by decide) (by decide) ?_ ?_ rfl rfl).2.1.mpr rfl
  · rintro _ ⟨⟩
    unfold Predicate.BuiltIn
    decide
  · rintro _ ⟨⟩
    unfold Predicate.BuiltIn
    decide

end Request

end ScopedSql
