import Mathlib.Data.List.TakeWhile
import ScopedSql.Sql.Lexer

/-!
# Texts are read as they were written

`render` puts as few spaces between tokens as it can. `lex_render` says that they are enough: names,
placeholders, comparison signs, numbers and punctuation (`Token.plain`) and text literals
(`Token.legible`) are read back as they were written. A text literal ends where it was ended, whatever
characters its text has (`readLiteral?_quoted`).
A token other than an opening parenthesis is always followed by a space, by a closing parenthesis, by
a comma or by nothing (`Ends`), and none of these can belong to it.
-/

namespace ScopedSql.Sql

variable {t : Token} {c : Char} {cs rest : List Char} {ts : List Token}

/-- **Tokens that are read back as they are written.** -/
def Token.plain : Token → Bool
  | .word text => isIdentifier text
  | .placeholder name =>
      match name.toList with
      | '@' :: rest => rest.all isIdentifierRest
      | _ => false
  | .sign text =>
      match text.toList with
      | [] => false
      | c :: rest => isSign c && rest.all isSign
  | .number text =>
      match text.toList with
      | [] => false
      | c :: rest => (c.isDigit || c == '-') && rest.all isNumberRest
  | .literal _ => false
  | .verbatim _ => false
  | _ => true

/-- **Tokens whose kind is seen in their text**: plain ones and text literals. -/
def Token.legible : Token → Bool
  | .literal _ => true
  | t => t.plain

/-- A plain token is legible. -/
theorem Token.legible_of_plain (h : t.plain) : t.legible := by
  cases t with
  | literal => cases h
  | _ => exact h

/-- **What stands behind a token**: nothing, or a character that ends it. -/
def Ends (rest : List Char) : Prop := ∀ c ∈ rest.head?, c = ' ' ∨ c = ')' ∨ c = ','

/-- The end of a text ends a token. -/
theorem ends_nil : Ends [] := by
  simp [Ends]

/-- A space, a closing parenthesis or a comma ends a token. -/
theorem ends_cons : Ends (c :: cs) ↔ c = ' ' ∨ c = ')' ∨ c = ',' := by
  simp [Ends]

/-- A run of characters is taken from the front of a text up to the first one of another kind. -/
theorem span_append {p : Char → Bool} (hcs : ∀ c ∈ cs, p c) (hrest : ∀ c ∈ rest.head?, ¬ p c) :
    (cs ++ rest).takeWhile p = cs ∧ (cs ++ rest).dropWhile p = rest := by
  have hstop : rest.takeWhile p = [] ∧ rest.dropWhile p = rest := by
    cases rest with
    | nil => exact ⟨rfl, rfl⟩
    | cons c rest =>
        have hc : ¬ p c := hrest c rfl
        simp [hc]
  rw [List.takeWhile_append_of_pos hcs, List.dropWhile_append_of_pos hcs, hstop.1, hstop.2]
  exact ⟨List.append_nil cs, rfl⟩

/-- What ends a token is part of no name. -/
theorem Ends.not_isIdentifierRest (h : Ends rest) : ∀ c ∈ rest.head?, ¬ isIdentifierRest c := by
  intro c hc
  rcases h c hc with rfl | rfl | rfl <;> decide

/-- What ends a token is part of no sign. -/
theorem Ends.not_isSign (h : Ends rest) : ∀ c ∈ rest.head?, ¬ isSign c := by
  intro c hc
  rcases h c hc with rfl | rfl | rfl <;> decide

/-- What ends a token is part of no number. -/
theorem Ends.not_isNumberRest (h : Ends rest) : ∀ c ∈ rest.head?, ¬ isNumberRest c := by
  intro c hc
  rcases h c hc with rfl | rfl | rfl <;> decide

/-! ### The first token -/

/-- Names begin with nothing that begins another token. -/
theorem ne_of_isIdentifierStart (h : isIdentifierStart c) :
    c ≠ '(' ∧ c ≠ ')' ∧ c ≠ ',' ∧ c ≠ '*' ∧ c ≠ '\x27' ∧ c ≠ '@' ∧ isSign c = false ∧
      isGap c = false := by
  refine ⟨?_, ?_, ?_, ?_, ?_, ?_, ?_, ?_⟩
  case refine_7 =>
    rw [Bool.eq_false_iff]
    intro hs
    simp only [isSign, Bool.or_eq_true, beq_iff_eq] at hs
    obtain ((rfl | rfl) | rfl) | rfl := hs <;> exact absurd h (by decide)
  case refine_8 =>
    rw [Bool.eq_false_iff]
    intro hg
    simp only [isGap, Bool.or_eq_true, beq_iff_eq] at hg
    obtain ((rfl | rfl) | rfl) | rfl := hg <;> exact absurd h (by decide)
  all_goals
    rintro rfl
    exact absurd h (by decide)

/-- Signs begin with nothing that begins another token. -/
theorem ne_of_isSign (h : isSign c) :
    c ≠ '(' ∧ c ≠ ')' ∧ c ≠ ',' ∧ c ≠ '*' ∧ c ≠ '\x27' ∧ c ≠ '@' ∧ isGap c = false := by
  simp only [isSign, Bool.or_eq_true, beq_iff_eq] at h
  obtain ((rfl | rfl) | rfl) | rfl := h <;> decide

/-- Numbers begin with nothing that begins another token. -/
theorem ne_of_isNumberStart (h : c.isDigit || c == '-') :
    c ≠ '(' ∧ c ≠ ')' ∧ c ≠ ',' ∧ c ≠ '*' ∧ c ≠ '\x27' ∧ c ≠ '@' ∧ isSign c = false ∧
      isIdentifierStart c = false ∧ isGap c = false := by
  have hstart : isIdentifierStart c = false := by
    rw [Bool.eq_false_iff]
    intro hi
    rw [Bool.or_eq_true, beq_iff_eq] at h
    obtain h | rfl := h
    · -- no digit is a letter or an underscore
      simp only [isIdentifierStart, Bool.or_eq_true, beq_iff_eq] at hi
      obtain hi | rfl := hi
      · delta Char.isAlpha Char.isUpper Char.isLower at hi
        simp only [Char.isDigit, Bool.or_eq_true, Bool.and_eq_true, decide_eq_true_eq,
          ge_iff_le] at hi h
        grind
      · exact absurd h (by decide)
    · exact absurd hi (by decide)
  have hsign : isSign c = false := by
    rw [Bool.eq_false_iff]
    intro hs
    simp only [isSign, Bool.or_eq_true, beq_iff_eq] at hs
    obtain ((rfl | rfl) | rfl) | rfl := hs <;> exact absurd h (by decide)
  have hgap : isGap c = false := by
    rw [Bool.eq_false_iff]
    intro hg
    simp only [isGap, Bool.or_eq_true, beq_iff_eq] at hg
    obtain ((rfl | rfl) | rfl) | rfl := hg <;> exact absurd h (by decide)
  refine ⟨?_, ?_, ?_, ?_, ?_, ?_, hsign, hstart, hgap⟩
  all_goals
    rintro rfl
    exact absurd h (by decide)

/-- A name is read up to its end. -/
theorem readToken?_word {text : String} (ht : text.toList = c :: cs)
    (hc : isIdentifierStart c) (hcs : ∀ d ∈ cs, isIdentifierRest d) (he : Ends rest) :
    readToken? c (cs ++ rest) = some (.word text, rest) := by
  obtain ⟨h₁, h₂, h₃, h₄, h₅, h₆, h₇, -⟩ := ne_of_isIdentifierStart hc
  obtain ⟨htake, hdrop⟩ := span_append hcs he.not_isIdentifierRest
  have hname : String.ofList (c :: cs) = text := by rw [← ht, String.ofList_toList]
  simp only [readToken?, h₁, h₂, h₃, h₄, h₅, h₆, h₇, hc, if_false, if_true, htake, hdrop,
    Bool.false_eq_true, hname]
  split
  · rcases ends_cons.mp he with h | h | h <;> cases h
  · rfl

/-- A placeholder is read up to its end. -/
theorem readToken?_placeholder {name : String} (hn : name.toList = '@' :: cs)
    (hcs : ∀ d ∈ cs, isIdentifierRest d) (he : Ends rest) :
    readToken? '@' (cs ++ rest) = some (.placeholder name, rest) := by
  obtain ⟨htake, hdrop⟩ := span_append hcs he.not_isIdentifierRest
  have hname : String.ofList ('@' :: cs) = name := by rw [← hn, String.ofList_toList]
  simp [readToken?, htake, hdrop, hname]

/-- A sign is read up to its end. -/
theorem readToken?_sign {text : String} (ht : text.toList = c :: cs) (hc : isSign c)
    (hcs : ∀ d ∈ cs, isSign d) (he : Ends rest) :
    readToken? c (cs ++ rest) = some (.sign text, rest) := by
  obtain ⟨h₁, h₂, h₃, h₄, h₅, h₆, -⟩ := ne_of_isSign hc
  obtain ⟨htake, hdrop⟩ := span_append hcs he.not_isSign
  have hname : String.ofList (c :: cs) = text := by rw [← ht, String.ofList_toList]
  simp [readToken?, h₁, h₂, h₃, h₄, h₅, h₆, hc, htake, hdrop, hname]

/-- A number is read up to its end. -/
theorem readToken?_number {text : String} (ht : text.toList = c :: cs)
    (hc : c.isDigit || c == '-') (hcs : ∀ d ∈ cs, isNumberRest d) (he : Ends rest) :
    readToken? c (cs ++ rest) = some (.number text, rest) := by
  obtain ⟨h₁, h₂, h₃, h₄, h₅, h₆, h₇, h₈, -⟩ := ne_of_isNumberStart hc
  obtain ⟨htake, hdrop⟩ := span_append hcs he.not_isNumberRest
  have hname : String.ofList (c :: cs) = text := by rw [← ht, String.ofList_toList]
  simp only [readToken?, h₁, h₂, h₃, h₄, h₅, h₆, h₇, h₈, hc, if_false, if_true, htake, hdrop,
    Bool.false_eq_true, hname]

/-- What ends a token is no quote. -/
theorem Ends.ne_quote (h : Ends rest) : ∀ c ∈ rest.head?, c ≠ '\x27' := by
  intro c hc
  rcases h c hc with rfl | rfl | rfl <;> decide

/-- **A text literal is read up to the quote that was written to end it**, for no quote follows that
one. -/
theorem readLiteral?_quoted (s : List Char) (h : ∀ c ∈ rest.head?, c ≠ '\x27') :
    readLiteral? ((quoteLiteral s).tail ++ rest) = some (s, rest) := by
  have hquoted : (quoteLiteral s).tail ++ rest =
      s.flatMap (fun c => if c = '\x27' then [c, c] else [c]) ++ '\x27' :: rest := by
    simp [quoteLiteral]
  rw [hquoted]
  induction s with
  | nil =>
      cases rest with
      | nil => rfl
      | cons d rest =>
          have hd : d ≠ '\x27' := h d rfl
          simp [readLiteral?, hd]
  | cons c s ih =>
      by_cases hc : c = '\x27'
      · subst hc
        simp [readLiteral?, ih (by simp [quoteLiteral])]
      · simp [readLiteral?, hc, ih (by simp [quoteLiteral])]

/-- **A plain token is read back as it is written**, whatever follows it; behind anything but an
opening parenthesis that has to end it. -/
theorem Token.exists_chars (h : t.plain) : ∃ c cs, t.chars = c :: cs ∧ isGap c = false ∧
    ∀ rest, t = .opening ∨ Ends rest → readToken? c (cs ++ rest) = some (t, rest) := by
  cases t with
  | word text =>
      simp only [plain, isIdentifier] at h
      split at h
      · cases h
      · rename_i c cs ht
        rw [Bool.and_eq_true, List.all_eq_true] at h
        refine ⟨c, cs, ht, (ne_of_isIdentifierStart h.1).2.2.2.2.2.2.2, fun rest he => ?_⟩
        exact readToken?_word ht h.1 h.2 (he.resolve_left (by simp))
  | placeholder name =>
      simp only [plain] at h
      split at h
      · rename_i cs ht
        rw [List.all_eq_true] at h
        refine ⟨'@', cs, ht, by decide, fun rest he => ?_⟩
        exact readToken?_placeholder ht h (he.resolve_left (by simp))
      · cases h
  | sign text =>
      simp only [plain] at h
      split at h
      · cases h
      · rename_i c cs ht
        rw [Bool.and_eq_true, List.all_eq_true] at h
        refine ⟨c, cs, ht, (ne_of_isSign h.1).2.2.2.2.2.2, fun rest he => ?_⟩
        exact readToken?_sign ht h.1 h.2 (he.resolve_left (by simp))
  | number text =>
      simp only [plain] at h
      split at h
      · cases h
      · rename_i c cs ht
        rw [Bool.and_eq_true, List.all_eq_true] at h
        refine ⟨c, cs, ht, (ne_of_isNumberStart h.1).2.2.2.2.2.2.2.2, fun rest he => ?_⟩
        exact readToken?_number ht h.1 h.2 (he.resolve_left (by simp))
  | opening => exact ⟨'(', [], rfl, by decide, fun _ _ => rfl⟩
  | closing => exact ⟨')', [], rfl, by decide, fun _ _ => rfl⟩
  | comma => exact ⟨',', [], rfl, by decide, fun _ _ => rfl⟩
  | star => exact ⟨'*', [], rfl, by decide, fun _ _ => rfl⟩
  | countAll => exact ⟨'C', ['O', 'U', 'N', 'T', '(', '*', ')'], rfl, by decide, fun _ _ => rfl⟩
  | literal => cases h
  | verbatim => cases h

/-- So is a text literal. -/
theorem Token.exists_chars_of_legible (h : t.legible) : ∃ c cs, t.chars = c :: cs ∧
    isGap c = false ∧
      ∀ rest, t = .opening ∨ Ends rest → readToken? c (cs ++ rest) = some (t, rest) := by
  cases t with
  | literal text =>
      refine ⟨'\x27', (quoteLiteral text.toList).tail, rfl, by decide, fun rest he => ?_⟩
      have hread := readLiteral?_quoted text.toList (he.resolve_left (by simp)).ne_quote
      simp [readToken?, hread]
  | _ => exact exists_chars h

/-! ### All tokens -/

/-- The space between a token and the ones behind it. -/
def spacing (a : Token) : List Token → List Char
  | [] => []
  | b :: _ => if a.tight b then [] else [' ']

/-- The characters of a list of tokens: those of the first one, the space behind it, and the rest. -/
theorem render_cons (a : Token) (ts : List Token) :
    render (a :: ts) = a.chars ++ (spacing a ts ++ render ts) := by
  cases ts with
  | nil => simp [render, spacing]
  | cons b rest => simp [render, spacing]

/-- Spacing is a space or nothing. -/
theorem spacing_eq (a : Token) (ts : List Token) : spacing a ts = [] ∨ spacing a ts = [' '] := by
  cases ts with
  | nil => exact .inl rfl
  | cons b rest => exact (ite_eq_or_eq _ _ _)

/-- **What is written behind a token ends it**, unless it is an opening parenthesis. -/
theorem ends_spacing (a : Token) (ts : List Token) :
    a = .opening ∨ Ends (spacing a ts ++ render ts) := by
  cases ts with
  | nil => exact .inr ends_nil
  | cons b rest =>
      by_cases ht : a.tight b
      · simp only [Token.tight, Bool.or_eq_true, beq_iff_eq] at ht
        obtain (rfl | rfl) | rfl := ht
        · exact .inl rfl
        · exact .inr (by rw [render_cons]; simp [spacing, Token.tight, Token.chars, Ends])
        · exact .inr (by rw [render_cons]; simp [spacing, Token.tight, Token.chars, Ends])
      · exact .inr (by simp [spacing, ht, Ends])

/-- **Legible tokens are read back** in front of whatever follows them, which is then read with the fuel
that is left. -/
theorem lexWithin_render_append (h : ∀ t ∈ ts, t.legible) (us : List Token) {fuel : Nat}
    (hf : (render (ts ++ us)).length ≤ fuel) : ∃ left, (render us).length ≤ left ∧
      lexWithin fuel (render (ts ++ us)) = (lexWithin left (render us)).map (ts ++ ·) := by
  induction ts generalizing fuel with
  | nil => exact ⟨fuel, hf, by simp⟩
  | cons a ts ih =>
      obtain ⟨ha, hts⟩ := List.forall_mem_cons.mp h
      obtain ⟨c, cs, hchars, hgap, hread⟩ := Token.exists_chars_of_legible ha
      rw [List.cons_append, render_cons, hchars, List.cons_append] at hf ⊢
      obtain ⟨fuel, rfl⟩ : ∃ n, fuel = n + 1 := ⟨fuel - 1, by simp at hf; omega⟩
      obtain ⟨left, hleft, hrest⟩ : ∃ left, (render us).length ≤ left ∧
          lexWithin fuel (spacing a (ts ++ us) ++ render (ts ++ us)) =
            (lexWithin left (render us)).map (ts ++ ·) := by
        simp only [List.length_cons, List.length_append] at hf
        rcases spacing_eq a (ts ++ us) with hs | hs <;> rw [hs] at hf ⊢
        · exact ih hts (by omega)
        · simp only [List.length_singleton] at hf
          obtain ⟨fuel, rfl⟩ : ∃ n, fuel = n + 1 := ⟨fuel - 1, by omega⟩
          exact ih hts (by omega)
      refine ⟨left, hleft, ?_⟩
      simp [lexWithin, hgap, hread _ (ends_spacing a (ts ++ us)), hrest, Function.comp_def]

/-- **Legible tokens are read back as they were written.** -/
theorem lex_render (h : ∀ t ∈ ts, t.legible) : lex (render ts) = some ts := by
  obtain ⟨left, -, hlex⟩ := lexWithin_render_append h [] (Nat.le_refl _)
  rw [List.append_nil] at hlex
  rw [lex, hlex]
  cases left <;> simp [render, lexWithin]

/-- **The tokens of a text are read back** if they are legible. -/
theorem lex_textOf (h : ∀ t ∈ ts, t.legible) : lex (textOf ts).toList = some ts := by
  rw [textOf, String.toList_ofList]
  exact lex_render h

/-- The tokens of a text are read back if they are plain. -/
theorem lex_textOf_of_plain (h : ∀ t ∈ ts, t.plain) : lex (textOf ts).toList = some ts :=
  lex_textOf fun t ht => Token.legible_of_plain (h t ht)

/-- **Behind legible tokens comes what the rest of the text begins with.** -/
theorem exists_of_lex_append (h : ∀ t ∈ ts, t.legible) {us read : List Token} {after : List Char}
    (hus : render us = c :: rest) (hgap : isGap c = false) (hread : readToken? c rest = some (t, after))
    (hlex : lex (textOf (ts ++ us)).toList = some read) : ∃ more, read = ts ++ t :: more := by
  obtain ⟨left, hleft, hsplit⟩ := lexWithin_render_append h us (Nat.le_refl _)
  rw [textOf, String.toList_ofList, lex, hsplit, Option.map_eq_some_iff] at hlex
  obtain ⟨ts', hts', rfl⟩ := hlex
  obtain ⟨left, rfl⟩ : ∃ n, left = n + 1 := ⟨left - 1, by rw [hus] at hleft; simp at hleft; omega⟩
  rw [hus, lexWithin, hgap, hread] at hts'
  obtain ⟨more, -, rfl⟩ := Option.map_eq_some_iff.mp hts'
  exact ⟨more, rfl⟩

end ScopedSql.Sql
