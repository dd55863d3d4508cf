import Mathlib.Data.List.DropRight
import ScopedSql.Text.Blank

/-!
# The words of a text

`Worded` says what the words of a text are without taking the text apart: the text is made of blanks and
words in turn, and no two words stand together. Every text is so made of its words, and of no others
(`words_eq_iff`). `Trimmed` says in the same way what is left of a text without the blanks at its ends
(`trimmed_trim`). Dropping such blanks changes neither the words of a text (`words_trim`) nor, a second
time, the text itself (`trim_trim`).
-/

namespace ScopedSql.Text

/-- A text of blanks. -/
def IsGap (g : List Char) : Prop := ∀ c ∈ g, isBlank c

/-- **A word**: a text that is not empty and has no blank. -/
structure IsWord (w : List Char) : Prop where
  /-- It is not empty. -/
  ne_nil : w ≠ []
  /-- It has no blank. -/
  ink : ∀ c ∈ w, ¬ isBlank c

/-- **A text of words**: a gap, a word, and so on. What follows a word is empty or begins with a
blank. -/
inductive Worded : List Char → List (List Char) → Prop
  /-- No word. -/
  | gap {g : List Char} : IsGap g → Worded g []
  /-- A word and what follows it. -/
  | word {g w rest : List Char} {ws : List (List Char)} :
      IsGap g → IsWord w → (∀ c ∈ rest.head?, isBlank c) → Worded rest ws →
        Worded (g ++ w ++ rest) (w :: ws)

/-- **A text without the blanks at the ends of another one.** -/
structure Trimmed (s t : List Char) : Prop where
  /-- Only blanks are dropped, before it and after it. -/
  gaps : ∃ before after, IsGap before ∧ IsGap after ∧ s = before ++ t ++ after
  /-- It begins with no blank. -/
  first : ∀ c ∈ t.head?, ¬ isBlank c
  /-- It ends with no blank. -/
  last : ∀ c ∈ t.getLast?, ¬ isBlank c

variable {g s t w rest : List Char} {ws : List (List Char)}

/-- A text that is joined from parts is changed part by part. -/
theorem map_intercalate (f : Char → Char) (gap : List Char) (parts : List (List Char)) :
    (gap.intercalate parts).map f = (gap.map f).intercalate (parts.map (List.map f)) := by
  induction parts with
  | nil => rfl
  | cons w parts ih =>
      cases parts with
      | nil => simp
      | cons v parts =>
          rw [List.map_cons, List.map_cons, List.intercalate_cons_cons, List.intercalate_cons_cons,
            List.map_append, List.map_append, ih, List.map_cons]

/-- Blanks in front of a text change no words. -/
theorem words_gap_append (hg : IsGap g) (s : List Char) : words (g ++ s) = words s := by
  induction g with
  | nil => rfl
  | cons c g ih =>
      obtain ⟨hc, hg⟩ := List.forall_mem_cons.mp hg
      rw [List.cons_append, words, if_pos hc, ih hg]

/-- A word is read off if a blank follows it or nothing. -/
theorem words_word_append (hw : IsWord w) (hrest : ∀ c ∈ rest.head?, isBlank c) :
    words (w ++ rest) = w :: words rest := by
  obtain ⟨hne, hink⟩ := hw
  induction w with
  | nil => exact absurd rfl hne
  | cons c w ih =>
      obtain ⟨hc, hink⟩ := List.forall_mem_cons.mp hink
      rw [List.cons_append, words, if_neg hc]
      cases w with
      | nil =>
          have happart : (rest.head?.map isBlank).getD true = true := by
            cases rest with
            | nil => rfl
            | cons d rest => exact hrest d rfl
          rw [List.nil_append, happart]
          cases words rest <;> rfl
      | cons d w =>
          have hd : isBlank d = false := by simpa using hink d List.mem_cons_self
          rw [ih (List.cons_ne_nil d w) hink, List.cons_append, List.head?_cons, Option.map_some,
            Option.getD_some, hd]
          rfl

/-- A text has no other words than those of which it is made. -/
theorem Worded.words_eq (h : Worded s ws) : words s = ws := by
  induction h with
  | gap hg =>
      have hnone := words_gap_append hg []
      rwa [List.append_nil] at hnone
  | word hg hw hrest _ ih =>
      rw [List.append_assoc, words_gap_append hg, words_word_append hw hrest, ih]

/-- One more blank in front of blanks. -/
theorem IsGap.cons {c : Char} (hc : isBlank c) (hg : IsGap g) : IsGap (c :: g) :=
  List.forall_mem_cons.mpr ⟨hc, hg⟩

/-- **Every text is made of words.** A character in front of it is a blank, or a word of its own, or goes
with the first word. -/
theorem exists_worded (s : List Char) : ∃ ws, Worded s ws := by
  induction s with
  | nil => exact ⟨[], .gap (fun _ hc => nomatch hc)⟩
  | cons c s ih =>
      obtain ⟨ws, h⟩ := ih
      by_cases hc : isBlank c
      · cases h with
        | gap hg => exact ⟨_, .gap (hg.cons hc)⟩
        | word hg hw hrest h => exact ⟨_, .word (hg.cons hc) hw hrest h⟩
      · have hgap : IsGap [] := fun _ hd => nomatch hd
        by_cases hapart : ∀ d ∈ s.head?, isBlank d
        · have hw : IsWord [c] := ⟨List.cons_ne_nil c [], List.forall_mem_singleton.mpr hc⟩
          exact ⟨_, .word hgap hw hapart h⟩
        · cases h with
          | gap hg => exact absurd (fun d hd => hg d (List.mem_of_mem_head? hd)) hapart
          | @word g w rest ws hg hw hrest h =>
              cases g with
              | nil =>
                  have hcw : IsWord (c :: w) :=
                    ⟨List.cons_ne_nil c w, List.forall_mem_cons.mpr ⟨hc, hw.ink⟩⟩
                  exact ⟨_, .word hgap hcw hrest h⟩
              | cons d g =>
                  refine absurd (fun e he => ?_) hapart
                  obtain rfl : d = e := by simpa using he
                  exact hg d List.mem_cons_self

/-- **The words of a text are those of which it is made.** -/
theorem words_eq_iff : words s = ws ↔ Worded s ws := by
  constructor
  · rintro rfl
    obtain ⟨ws, h⟩ := exists_worded s
    exact h.words_eq ▸ h
  · exact Worded.words_eq

/-- A gap behind a text is part of no word. -/
theorem Worded.append_gap (h : Worded s ws) (hg : IsGap g) : Worded (s ++ g) ws := by
  induction h with
  | gap hfirst => exact .gap (List.forall_mem_append.mpr ⟨hfirst, hg⟩)
  | @word first w rest ws hfirst hw hrest _ ih =>
      rw [List.append_assoc]
      refine .word hfirst hw (fun c hc => ?_) ih
      cases rest with
      | nil => exact hg c (List.mem_of_mem_head? hc)
      | cons d rest => exact hrest c hc

/-- Blanks behind a text change no words. -/
theorem words_append_gap (hg : IsGap g) (s : List Char) : words (s ++ g) = words s := by
  obtain ⟨ws, h⟩ := exists_worded s
  rw [h.words_eq, (h.append_gap hg).words_eq]

/-! ### Blanks at the ends of a text -/

/-- To trim is to drop the blanks in front and behind. -/
theorem trim_eq_rdropWhile (s : List Char) :
    trim s = (s.dropWhile isBlank).rdropWhile isBlank :=
  rfl

/-- **What `trim` leaves of a text is the text without the blanks at its ends.** -/
theorem trimmed_trim (s : List Char) : Trimmed s (trim s) := by
  have hback : trim s ++ (s.dropWhile isBlank).rtakeWhile isBlank = s.dropWhile isBlank :=
    List.rdropWhile_append_rtakeWhile
  refine ⟨⟨s.takeWhile isBlank, (s.dropWhile isBlank).rtakeWhile isBlank,
    fun c hc => List.mem_takeWhile_imp hc, fun c hc => List.mem_rtakeWhile_imp hc, ?_⟩,
    fun c hc => ?_, fun c hc => ?_⟩
  · rw [List.append_assoc, hback, List.takeWhile_append_dropWhile]
  · -- the first character is the first one that is no blank
    have hhead := List.head?_dropWhile_not isBlank s
    obtain ⟨t, ht⟩ := List.head?_eq_some_iff.mp hc
    rw [← hback, ht, List.cons_append, List.head?_cons] at hhead
    simpa using hhead
  · obtain ⟨hne, rfl⟩ := List.mem_getLast?_eq_getLast hc
    exact List.rdropWhile_last_not isBlank _ hne

/-- **Dropping the blanks at its ends does not change the words of a text.** -/
theorem words_trim (s : List Char) : words (trim s) = words s := by
  obtain ⟨⟨before, after, hbefore, hafter, heq⟩, -, -⟩ := trimmed_trim s
  calc words (trim s) = words (trim s ++ after) := (words_append_gap hafter _).symm
    _ = words (before ++ (trim s ++ after)) := (words_gap_append hbefore _).symm
    _ = words s := by rw [← List.append_assoc, ← heq]

/-- **There are no blanks at the ends of a text from which they were dropped.** -/
theorem trim_trim (s : List Char) : trim (trim s) = trim s := by
  have hfront : (trim s).dropWhile isBlank = trim s := by
    -- what is dropped behind the text does not change where it begins
    refine List.dropWhile_eq_self_iff.mpr fun hlen => ?_
    have hprefix := List.rdropWhile_prefix isBlank (s.dropWhile isBlank)
    have hlen' : 0 < (s.dropWhile isBlank).length := Nat.lt_of_lt_of_le hlen hprefix.length_le
    have hhead : (trim s)[0] = (s.dropWhile isBlank)[0] := hprefix.getElem hlen
    rw [hhead]
    exact List.dropWhile_get_zero_not isBlank s hlen'
  rw [trim_eq_rdropWhile (trim s), hfront, trim_eq_rdropWhile, List.rdropWhile_idempotent]

end ScopedSql.Text
