/-!
# Blanks

The characters with the Unicode property `White_Space`, and the two ways in which blanks are
taken off a text: `trim` drops them at both ends, `words` drops them everywhere and keeps the
runs between them.

## Main results

* `words_blank_free`: no word holds a blank, and none is empty.
* `words_eq_nil_iff`: a text has no word exactly when it is all blank.
-/

namespace ScopedSql.Text

/-- **The property `White_Space`** as closed ranges of code points. -/
def blankRanges : List (Nat × Nat) :=
  [(0x0009, 0x000D), (0x0020, 0x0020), (0x0085, 0x0085), (0x00A0, 0x00A0), (0x1680, 0x1680),
   (0x2000, 0x200A), (0x2028, 0x2029), (0x202F, 0x202F), (0x205F, 0x205F), (0x3000, 0x3000)]

/-- Whether a character is white space. -/
def isBlank (c : Char) : Bool :=
  blankRanges.any fun (low, high) => decide (low ≤ c.toNat) && decide (c.toNat ≤ high)

/-- The text without the blanks at its two ends. -/
def trim (s : List Char) : List Char :=
  ((s.dropWhile isBlank).reverse.dropWhile isBlank).reverse

/-- Puts a character in front of the first word, which it starts when `apart` holds or when
there is no word yet. -/
def glue (apart : Bool) (c : Char) (ws : List (List Char)) : List (List Char) :=
  match apart, ws with
  | false, w :: rest => (c :: w) :: rest
  | _, _ => [c] :: ws

/-- The maximal runs of non-blank characters, in order. -/
def words : List Char → List (List Char)
  | [] => []
  | c :: rest =>
      if isBlank c then words rest
      else glue ((rest.head?.map isBlank).getD true) c (words rest)

/-! ### Laws of the words of a text -/

/-- **Words are blank-free**: no word is empty and none holds a blank. -/
theorem words_blank_free (s : List Char) :
    ∀ w ∈ words s, w ≠ [] ∧ ∀ c ∈ w, isBlank c = false := by
  induction s with
  | nil => simp [words]
  | cons c rest ih =>
      intro w hw
      by_cases hc : isBlank c = true
      · rw [words, if_pos hc] at hw
        exact ih w hw
      · rw [words, if_neg hc] at hw
        have hc' : isBlank c = false := by simpa using hc
        generalize (rest.head?.map isBlank).getD true = apart at hw
        match apart, hws : words rest, hw with
        | false, [], hw =>
            simp only [glue, List.mem_singleton] at hw
            subst hw
            simp [hc']
        | false, v :: vs, hw =>
            simp only [glue, List.mem_cons] at hw
            rcases hw with rfl | hw
            · refine ⟨by simp, ?_⟩
              intro d hd
              rcases List.mem_cons.1 hd with rfl | hd
              · exact hc'
              · exact (ih v (by simp [hws])).2 d hd
            · exact ih w (by simp [hws, hw])
        | true, ws, hw =>
            simp only [glue, List.mem_cons] at hw
            rcases hw with rfl | hw
            · simp [hc']
            · exact ih w (by simp [hws, hw])

/-- **No word, no ink**: a text has no word exactly when all of it is blank. -/
theorem words_eq_nil_iff (s : List Char) : words s = [] ↔ ∀ c ∈ s, isBlank c = true := by
  induction s with
  | nil => simp [words]
  | cons c rest ih =>
      by_cases hc : isBlank c = true
      · simp [words, hc, ih]
      · have hne : ∀ (apart : Bool) (ws : List (List Char)), glue apart c ws ≠ [] := by
          intro apart ws
          cases apart <;> cases ws <;> simp [glue]
        simp [words, hc, hne]

end ScopedSql.Text
