import ScopedSql.Proofs.Predicate.NormalForm
import ScopedSql.Proofs.Text.Words

/-!
# Which texts are which operators

A text is a built-in operator exactly if its words, joined by single spaces and in upper case, are one of
the spellings of the table `Operator.spellings`. So texts that differ only in blanks and in the case of
ASCII letters (`Operator.Alike`) are the same operator, if it is a built-in one. Any other text is an
operator of its own, and only the blanks at its ends are dropped (`Operator.text_canonical`). Either way
the operator is read from its own text again (`Operator.parse_sql_parse`).
-/

namespace ScopedSql.Operator

variable {o : Operator} {raw raw' spelled : String}

/-- **The spellings of the built-in operators.** -/
def spellings : List (String × Operator) :=
  [("=", .eq), ("==", .eq), ("!=", .notEq), ("<>", .notEq), (">", .gt), (">=", .ge), ("<", .lt),
    ("<=", .le), ("LIKE", .like), ("IN", .isIn), ("NOT IN", .notIn)]

/-- **What a text spells**: its words, joined by single spaces, in upper case. -/
def Spells (raw spelled : String) : Prop :=
  ∃ ws, Text.Worded raw.toList ws ∧ spelled.toList = ([' '].intercalate ws).map Char.toUpper

/-- **Texts that differ only in blanks and case**: word by word they have the same letters. -/
def Alike (raw raw' : String) : Prop :=
  ∃ ws ws', Text.Worded raw.toList ws ∧ Text.Worded raw'.toList ws' ∧
    ws.map (List.map Char.toUpper) = ws'.map (List.map Char.toUpper)

/-- A spelling is found exactly if it is in the table. -/
theorem builtIn?_eq_some_iff : builtIn? spelled = some o ↔ (spelled, o) ∈ spellings := by
  unfold builtIn?
  split <;> simp_all [spellings, eq_comm]

/-- A text spells one thing. -/
theorem spells_iff : Spells raw spelled ↔ spelling raw = spelled := by
  constructor
  · rintro ⟨ws, hws, hspelled⟩
    rw [spelling, hws.words_eq, ← hspelled, String.ofList_toList]
  · rintro rfl
    exact ⟨_, Text.words_eq_iff.mp rfl, String.toList_ofList⟩

/-- Texts that differ only in blanks and case spell the same. -/
theorem Alike.spelling_eq (h : Alike raw raw') : spelling raw' = spelling raw := by
  obtain ⟨ws, ws', hws, hws', hsame⟩ := h
  rw [spelling, spelling, hws.words_eq, hws'.words_eq, Text.map_intercalate, Text.map_intercalate, hsame]

/-- **A text is read** as the operator that it spells, or as an operator of its own. -/
theorem parse_cases (raw : String) :
    (∃ o, builtIn? (spelling raw) = some o ∧ o.isBuiltIn ∧ parse raw = o) ∨
      builtIn? (spelling raw) = none ∧
        ∃ text, Text.Trimmed raw.toList text.toList ∧ parse raw = .other text := by
  have htable : ∀ p ∈ spellings, p.2.isBuiltIn := by decide
  cases hb : builtIn? (spelling raw) with
  | some o =>
      refine .inl ⟨o, rfl, htable _ (builtIn?_eq_some_iff.mp hb), ?_⟩
      rw [parse, hb, Option.getD_some]
  | none =>
      refine .inr ⟨rfl, String.ofList (Text.trim raw.toList), ?_, ?_⟩
      · rw [String.toList_ofList]
        exact Text.trimmed_trim raw.toList
      · rw [parse, hb, Option.getD_none]

/-- A text is read as a built-in operator exactly if its spelling is one of them. -/
theorem parse_builtIn_iff :
    parse raw = o ∧ o.isBuiltIn ↔ builtIn? (spelling raw) = some o := by
  rcases parse_cases raw with ⟨o', hb, hbuilt, hparse⟩ | ⟨hb, text, -, hparse⟩
  · rw [hb, hparse, Option.some.injEq]
    exact and_iff_left_of_imp fun h => h ▸ hbuilt
  · rw [hb, hparse]
    refine iff_of_false ?_ nofun
    rintro ⟨rfl, hbuilt⟩
    cases hbuilt

/-- **A text that is alike is the same operator**, if it is a built-in one, and no other text takes a
list. -/
theorem Alike.parse_eq (h : Alike raw raw') :
    ((parse raw).isBuiltIn → parse raw' = parse raw) ∧
      (parse raw').takesList = (parse raw).takesList := by
  rcases parse_cases raw with ⟨o, hb, -, hparse⟩ | ⟨hb, text, -, hparse⟩
  · have hsame : parse raw' = o := (parse_builtIn_iff.mpr (h.spelling_eq ▸ hb)).1
    rw [hparse, hsame]
    exact ⟨fun _ => rfl, rfl⟩
  · rcases parse_cases raw' with ⟨o, hb', -⟩ | ⟨-, text', -, hparse'⟩
    · rw [h.spelling_eq, hb] at hb'
      cases hb'
    · rw [hparse, hparse']
      exact ⟨nofun, rfl⟩

/-- A built-in operator is read from its text. -/
theorem parse_sql_of_builtIn? (h : builtIn? spelled = some o) : parse o.sql = o := by
  unfold builtIn? at h
  split at h
  all_goals
    cases h
  all_goals
    decide

/-- Dropping the blanks at its ends does not change the spelling of a text. -/
theorem spelling_trim (raw : String) :
    spelling (String.ofList (Text.trim raw.toList)) = spelling raw := by
  rw [spelling, String.toList_ofList, Text.words_trim, spelling]

/-- **An operator that was read from a text is read from its own text.** -/
theorem parse_sql_parse (raw : String) : parse (parse raw).sql = parse raw := by
  cases hb : builtIn? (spelling raw) with
  | some o =>
      have hparse : parse raw = o := by rw [parse, hb, Option.getD_some]
      rw [hparse, parse_sql_of_builtIn? hb]
  | none =>
      have hparse : parse raw = .other (String.ofList (Text.trim raw.toList)) := by
        rw [parse, hb, Option.getD_none]
      rw [hparse, sql, parse, spelling_trim, hb, Option.getD_none, String.toList_ofList,
        Text.trim_trim]

/-- **The text of an operator is canonical.** It is read as the same operator again. A text is a built-in
operator exactly if it spells it, so neither blanks nor case count there, and any other text is an
operator as it stands, without the blanks at its ends. -/
theorem text_canonical (raw : String) :
    parse (parse raw).sql = parse raw ∧
      (∀ o, parse raw = o ∧ o.isBuiltIn ↔ ∃ spelled, Spells raw spelled ∧ (spelled, o) ∈ spellings) ∧
      (¬ (parse raw).isBuiltIn →
        ∃ text, Text.Trimmed raw.toList text.toList ∧ parse raw = .other text) ∧
      ∀ raw', Alike raw raw' → ((parse raw).isBuiltIn → parse raw' = parse raw) ∧
        (parse raw').takesList = (parse raw).takesList := by
  refine ⟨parse_sql_parse raw, fun o => ?_, fun hno => ?_, fun raw' h => h.parse_eq⟩
  · rw [parse_builtIn_iff, builtIn?_eq_some_iff]
    simp only [spells_iff, exists_eq_left']
  · rcases parse_cases raw with ⟨o, -, hbuilt, hparse⟩ | ⟨-, htext⟩
    · exact absurd (hparse ▸ hbuilt) hno
    · exact htext

/-- Any blanks and any case. -/
example : parse "\u2003not\u00A0\tIn\n" = .notIn := by decide

/-- Blanks between words stay where the text is no built-in operator. -/
example : parse " is  Not " = .other "is  Not" := by decide

end ScopedSql.Operator
