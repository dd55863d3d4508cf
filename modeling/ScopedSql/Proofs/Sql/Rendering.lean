import ScopedSql.Proofs.Sql.Lexing

/-!
# The texts of token lists

What `textOf` makes of lists that are put together: a space stands between two lists whose ends do not
hold on to each other (`Loose`), parts with commas are joined by `", "`, and parentheses stand close
around what is in them.
-/

namespace ScopedSql.Sql

variable {ts us : List Token} {parts : List (List Token)}

/-- **Tokens between which and their neighbours spaces stand**: they are some, they do not end with an
opening parenthesis, and begin neither with a closing one nor with a comma. -/
structure Loose (ts : List Token) : Prop where
  /-- There is a last token, and it is no opening parenthesis. -/
  last : ∃ t ∈ ts.getLast?, t ≠ .opening
  /-- There is a first token, and it is neither a closing parenthesis nor a comma. -/
  first : ∃ t ∈ ts.head?, t ≠ .closing ∧ t ≠ .comma

/-- A word is loose. -/
theorem loose_word (text : String) : Loose [.word text] :=
  ⟨⟨_, rfl, nofun⟩, ⟨_, rfl, nofun, nofun⟩⟩

/-- A loose list is not empty. -/
theorem Loose.ne_nil (h : Loose ts) : ts ≠ [] := by
  rintro rfl
  obtain ⟨t, ht, -⟩ := h.first
  cases ht

/-- What stands between two loose lists has no part in whether all of it is loose. -/
theorem Loose.around (ht : Loose ts) (mid : List Token) (hu : Loose us) : Loose (ts ++ (mid ++ us)) := by
  obtain ⟨first, hfirst, hne⟩ := ht.first
  obtain ⟨last, hlast, hne'⟩ := hu.last
  refine ⟨⟨last, ?_, hne'⟩, ⟨first, ?_, hne⟩⟩
  · rw [List.getLast?_append, List.getLast?_append, hlast]
    rfl
  · rw [List.head?_append, hfirst]
    rfl

/-- Two loose lists make up a loose one. -/
theorem Loose.append (ht : Loose ts) (hu : Loose us) : Loose (ts ++ us) := ht.around [] hu

/-- **A list is written before another one** with the space between them. -/
theorem render_append {last : Token} (h : ts.getLast? = some last) (us : List Token) :
    render (ts ++ us) = render ts ++ (spacing last us ++ render us) := by
  induction ts with
  | nil => cases h
  | cons t ts ih =>
      cases ts with
      | nil =>
          obtain rfl : t = last := by simpa using h
          rw [List.singleton_append, render_cons]
          rfl
      | cons t' ts =>
          have hmore := ih (by simpa using h)
          have hspace : spacing t (t' :: ts ++ us) = spacing t (t' :: ts) := rfl
          rw [List.cons_append, render_cons, hspace, hmore, render_cons t]
          simp only [List.append_assoc]

/-- Behind a loose list a space stands, unless what follows holds on to it. -/
theorem render_append_of_loose (ht : Loose ts) (hu : ∃ t ∈ us.head?, t ≠ .closing ∧ t ≠ .comma) :
    render (ts ++ us) = render ts ++ ' ' :: render us := by
  obtain ⟨last, hlast, hopening⟩ := ht.last
  obtain ⟨first, hfirst, hclosing, hcomma⟩ := hu
  obtain ⟨more, rfl⟩ := List.head?_eq_some_iff.mp hfirst
  rw [render_append hlast, spacing, Token.tight]
  simp [hopening, hclosing, hcomma]

/-- In front of a closing parenthesis or a comma stands no space. -/
theorem render_append_tight (hts : ts ≠ []) {t : Token} (ht : t = .closing ∨ t = .comma) :
    render (ts ++ t :: us) = render ts ++ render (t :: us) := by
  have hlast := List.getLast?_eq_some_getLast hts
  rw [render_append hlast, spacing, Token.tight]
  rcases ht with rfl | rfl <;> simp

/-- Loose parts stay loose with commas between them. -/
theorem loose_commaSeparated (hne : parts ≠ []) (h : ∀ part ∈ parts, Loose part) :
    Loose (commaSeparated parts) := by
  induction parts with
  | nil => exact absurd rfl hne
  | cons part parts ih =>
      obtain ⟨hpart, hparts⟩ := List.forall_mem_cons.mp h
      cases parts with
      | nil => exact hpart
      | cons next parts =>
          rw [commaSeparated_cons_cons]
          exact hpart.around [.comma] (ih (List.cons_ne_nil _ _) hparts)

/-- **Parts with commas between them** are written with a comma and a space between them. -/
theorem render_commaSeparated (h : ∀ part ∈ parts, Loose part) :
    render (commaSeparated parts) = [',', ' '].intercalate (parts.map render) := by
  induction parts with
  | nil => rfl
  | cons part parts ih =>
      obtain ⟨hpart, hparts⟩ := List.forall_mem_cons.mp h
      cases parts with
      | nil => simp [commaSeparated, separated]
      | cons next parts =>
          have hmore := loose_commaSeparated (List.cons_ne_nil next parts) hparts
          obtain ⟨first, hfirst, hclosing, hcomma⟩ := hmore.first
          have hspace : spacing .comma (commaSeparated (next :: parts)) = [' '] := by
            obtain ⟨more, heq⟩ := List.head?_eq_some_iff.mp hfirst
            rw [heq, spacing, Token.tight]
            simp [hclosing, hcomma]
          rw [commaSeparated_cons_cons, render_append_tight hpart.ne_nil (.inr rfl), render_cons, hspace,
            ih hparts]
          simp only [List.map_cons, List.intercalate_cons_cons, Token.chars, List.append_assoc]
          rfl

/-- **What is in parentheses** is written close to them. -/
theorem render_parenthesized (hts : ts ≠ []) : render (parenthesized ts) = '(' :: (render ts ++ [')']) := by
  have hspace : spacing .opening (ts ++ [.closing]) = [] := by
    cases ts with
    | nil => exact absurd rfl hts
    | cons t ts => rfl
  rw [parenthesized, List.cons_append, render_cons, hspace, render_append_tight hts (.inl rfl)]
  rfl

/-- Tokens in parentheses are loose. -/
theorem loose_parenthesized (ts : List Token) : Loose (parenthesized ts) :=
  ⟨⟨.closing, List.getLast?_concat, by decide⟩, ⟨.opening, rfl, by decide⟩⟩

/-! ### The texts -/

/-- The text of a word is that word. -/
theorem textOf_singleton_word (text : String) : textOf [.word text] = text :=
  String.ofList_toList

/-- A loose list is written with a space behind it, unless what follows holds on to it. -/
theorem textOf_append (ht : Loose ts) (hu : ∃ t ∈ us.head?, t ≠ .closing ∧ t ≠ .comma) :
    textOf (ts ++ us) = textOf ts ++ " " ++ textOf us := by
  rw [textOf, render_append_of_loose ht hu, List.append_cons, String.ofList_append,
    String.ofList_append]
  rfl

/-- The text of a list is that of its parts with commas and spaces. -/
theorem textOf_commaSeparated (h : ∀ part ∈ parts, Loose part) :
    textOf (commaSeparated parts) = ", ".intercalate (parts.map textOf) := by
  rw [← String.toList_inj, String.toList_intercalate, textOf, String.toList_ofList,
    render_commaSeparated h, List.map_map]
  simp [Function.comp_def, textOf]

/-- The text of tokens in parentheses is theirs in parentheses. -/
theorem textOf_parenthesized (hts : ts ≠ []) :
    textOf (parenthesized ts) = "(" ++ textOf ts ++ ")" := by
  rw [textOf, render_parenthesized hts, ← List.singleton_append, String.ofList_append,
    String.ofList_append]
  rfl

end ScopedSql.Sql
