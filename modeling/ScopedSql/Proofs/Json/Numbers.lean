import Mathlib.Data.List.TakeWhile
import ScopedSql.Json.Reader

/-!
# Whole numbers are read back

A whole number is written in decimal digits without leading zeros, with a minus before them if it is
negative. `readNumber?_toString` says that it is read back from that text.
-/

namespace ScopedSql.Json

variable {n : Nat}

/-- Only the text of zero begins with a zero. -/
theorem eq_zero_of_head?_toDigits (h : (Nat.toDigits 10 n).head? = some '0') : n = 0 := by
  induction n using Nat.strongRecOn with
  | ind n ih =>
      rcases Nat.lt_or_ge n 10 with hn | hn
      · have hdigit : ∀ d < 10, Nat.digitChar d = '0' → d = 0 := by decide
        rw [Nat.toDigits_of_lt_base hn] at h
        exact hdigit n hn (Option.some.inj h)
      · rw [Nat.toDigits_of_base_le (by decide) hn, List.head?_append] at h
        cases hd : Nat.toDigits 10 (n / 10) with
        | nil => exact absurd hd Nat.toDigits_ne_nil
        | cons d ds =>
            rw [hd] at h
            have := ih (n / 10) (by omega) (by rw [hd]; exact h)
            omega

/-- The digits of a number have its value. -/
theorem digitsValue_toDigits (n : Nat) : digitsValue (Nat.toDigits 10 n) = n := by
  have hfold : digitsValue (Nat.toDigits 10 n) = Nat.ofDigitChars 10 (Nat.toDigits 10 n) 0 := by
    simp only [digitsValue, Nat.ofDigitChars, Nat.mul_comm]
  rw [hfold, Nat.ofDigitChars_toDigits (by decide) (by decide)]

/-- Decimal digits are digits. -/
theorem isDigit_toDigits (n : Nat) : ∀ c ∈ Nat.toDigits 10 n, c.isDigit := fun _ hc =>
  Nat.isDigit_of_mem_toDigits (by decide) (by decide) hc

/-- The text of a number is one run of digits. -/
theorem span_toDigits (n : Nat) : (Nat.toDigits 10 n).takeWhile Char.isDigit = Nat.toDigits 10 n ∧
    (Nat.toDigits 10 n).dropWhile Char.isDigit = [] :=
  ⟨List.takeWhile_eq_self_iff.mpr (isDigit_toDigits n),
    List.dropWhile_eq_nil_iff.mpr (isDigit_toDigits n)⟩

/-- No decimal number has a zero too many in front. -/
theorem not_leading_zero (n : Nat) : ¬ ((Nat.toDigits 10 n).isEmpty ∨
    (Nat.toDigits 10 n).head? = some '0' ∧ 1 < (Nat.toDigits 10 n).length) := by
  rintro (h | ⟨h, hlen⟩)
  · exact Nat.toDigits_ne_nil (List.isEmpty_iff.mp h)
  · rw [eq_zero_of_head?_toDigits h] at hlen
    exact absurd hlen (by decide)

/-- **Digits are read as the number that they stand for.** -/
theorem readNumber?_toDigits (n : Nat) :
    readNumber? (Nat.toDigits 10 n) = some (Number.ofInt n, []) := by
  obtain ⟨htake, hdrop⟩ := span_toDigits n
  have hsign : ∀ rest, Nat.toDigits 10 n ≠ '-' :: rest := by
    intro rest h
    have := isDigit_toDigits n '-' (by rw [h]; exact List.mem_cons_self)
    cases this
  unfold readNumber?
  split
  rename_i negative rest hread
  split at hread
  · exact absurd ‹_› (hsign _)
  · obtain ⟨rfl, rfl⟩ := Prod.mk.inj hread
    simp only [htake, hdrop, if_neg (not_leading_zero n), digitsValue_toDigits]
    simp [readFraction?, readExponent?]

/-- Digits after a minus are read as the negative of the number, unless that is zero. -/
theorem readNumber?_neg (hn : n ≠ 0) :
    readNumber? ('-' :: Nat.toDigits 10 n) = some (Number.ofInt (-n), []) := by
  obtain ⟨htake, hdrop⟩ := span_toDigits n
  simp only [readNumber?, htake, hdrop, if_neg (not_leading_zero n), digitsValue_toDigits]
  simp [readFraction?, readExponent?, hn]

/-- A negative number is written with a minus before its digits. -/
theorem toList_toString_negSucc (n : Nat) :
    (toString (Int.negSucc n)).toList = '-' :: Nat.toDigits 10 (n + 1) := by
  rw [show toString (Int.negSucc n) = "-" ++ (n + 1).repr from rfl, String.toList_append,
    Nat.toList_repr]
  rfl

/-- **A whole number is read back** from its text. -/
theorem readNumber?_toString (z : Int) :
    readNumber? (toString z).toList = some (Number.ofInt z, []) := by
  cases z with
  | ofNat n =>
      rw [show (toString (Int.ofNat n)).toList = Nat.toDigits 10 n from Nat.toList_repr]
      exact readNumber?_toDigits n
  | negSucc n =>
      rw [toList_toString_negSucc]
      exact readNumber?_neg (Nat.succ_ne_zero n)

end ScopedSql.Json
