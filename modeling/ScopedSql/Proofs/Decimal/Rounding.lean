import Mathlib.Algebra.Ring.Nat
import ScopedSql.Decimal.Binary64

/-!
# Integers round to finite doubles

An integer keeps the fifty-three bits below its leading one, so the exponent of the nearest double is
that of the integer, or one more where the bits round up. For integers of up to 1023 bits this is less
than what the infinities have (`Binary64.isFinite_ofInt`).
-/

namespace ScopedSql

namespace Binary64

/-- A power with a natural exponent. -/
theorem power_natCast (b k : Nat) : power b k = b ^ k := rfl

/-- A power with no positive exponent is one. -/
theorem power_neg_natCast (b k : Nat) : power b (-(k : Int)) = 1 := by
  have hk : (-(k : Int)).toNat = 0 := by omega
  rw [power, hk]
  rfl

/-- A word whose magnitude is below that of the infinities is finite. -/
theorem isFinite_ofSignMagnitude {magnitude : Nat} (negative : Bool)
    (h : magnitude < infiniteMagnitude) : (ofSignMagnitude negative magnitude).isFinite := by
  have hinf : infiniteMagnitude = 2047 * 2 ^ 52 := rfl
  have hsign : (if negative then power 2 63 else 0) = negative.toNat * 2 ^ 63 := by
    cases negative <;> rfl
  have hword : (ofSignMagnitude negative magnitude).bits.toNat =
      magnitude + negative.toNat * 2 ^ 63 := by
    have hle := negative.toNat_le
    rw [ofSignMagnitude, hsign, UInt64.toNat_ofNat', Nat.mod_eq_of_lt (by omega)]
  have hfield : (ofSignMagnitude negative magnitude).exponentField = magnitude / 2 ^ 52 := by
    have h52 : power 2 52 = 2 ^ 52 := rfl
    have h11 : power 2 11 = 2 ^ 11 := rfl
    rw [exponentField, hword, h52, h11]
    omega
  rw [isFinite, hfield, decide_eq_true_eq]
  omega

/-- A quotient is rounded to no more than the number after it. -/
theorem roundQuotient_le (num den : Nat) : roundQuotient num den ≤ num / den + 1 := by
  unfold roundQuotient
  dsimp only
  split <;> omega

/-- **The scale of a whole number** leaves fifty-three bits of it. -/
theorem scaleOf_one {n : Nat} (hn : n ≠ 0) : scaleOf n 1 = (n.log2 : Int) - 52 := by
  have hlow : 2 ^ n.log2 ≤ n := Nat.log2_self_le hn
  have hestimate : (n.log2 : Int) - (1 : Nat).log2 - 52 = (n.log2 : Int) - 52 := by
    simp [show Nat.log2 1 = 0 from by decide]
  have hfits : ¬ n * power 2 (-((n.log2 : Int) - 52)) <
      power 2 52 * (1 * power 2 ((n.log2 : Int) - 52)) := by
    rw [Nat.not_lt, Nat.one_mul]
    rcases Nat.le_total 52 n.log2 with h | h
    · obtain ⟨k, hk⟩ := Nat.exists_eq_add_of_le h
      have hscale : (n.log2 : Int) - 52 = (k : Nat) := by omega
      rw [hscale, power_neg_natCast, power_natCast, Nat.mul_one]
      calc power 2 52 * 2 ^ k = 2 ^ n.log2 := by rw [hk, Nat.pow_add]; rfl
        _ ≤ n := hlow
    · obtain ⟨k, hk⟩ := Nat.exists_eq_add_of_le h
      have hscale : (n.log2 : Int) - 52 = -(k : Nat) := by omega
      rw [hscale, Int.neg_neg, power_neg_natCast, power_natCast, Nat.mul_one]
      calc power 2 52 = 2 ^ n.log2 * 2 ^ k := by rw [← Nat.pow_add, ← hk]; rfl
        _ ≤ n * 2 ^ k := Nat.mul_le_mul_right _ hlow
  unfold scaleOf
  dsimp only
  rw [hestimate, if_neg hfits]
  omega

/-- The significand of a whole number has fifty-three bits, or is the next power of two. -/
theorem roundScaled_one_le (n : Nat) :
    roundScaled n 1 ((n.log2 : Int) - 52) ≤ 2 ^ 53 := by
  have hhigh : n < 2 ^ (n.log2 + 1) := Nat.lt_log2_self
  refine Nat.le_trans (roundQuotient_le _ _) (Nat.succ_le_of_lt ?_)
  rw [Nat.one_mul]
  rcases Nat.le_total 52 n.log2 with h | h
  · obtain ⟨k, hk⟩ := Nat.exists_eq_add_of_le h
    have hscale : (n.log2 : Int) - 52 = (k : Nat) := by omega
    rw [hscale, power_neg_natCast, power_natCast, Nat.mul_one]
    refine Nat.div_lt_of_lt_mul (Nat.lt_of_lt_of_eq hhigh ?_)
    rw [hk, ← Nat.pow_add]
    congr 1
    omega
  · obtain ⟨k, hk⟩ := Nat.exists_eq_add_of_le h
    have hscale : (n.log2 : Int) - 52 = -(k : Nat) := by omega
    rw [hscale, Int.neg_neg, power_neg_natCast, power_natCast, Nat.div_one]
    calc n * 2 ^ k < 2 ^ (n.log2 + 1) * 2 ^ k :=
          Nat.mul_lt_mul_of_pos_right hhigh (Nat.two_pow_pos k)
      _ = 2 ^ 53 := by rw [← Nat.pow_add]; congr 1; omega

/-- **Whole numbers of up to 1023 bits are nearest to a finite double.** -/
theorem magnitudeOfRatio_one_lt {n : Nat} (hlog : n.log2 < 1023) :
    magnitudeOfRatio n 1 < infiniteMagnitude := by
  have hinf : infiniteMagnitude = 2047 * 2 ^ 52 := rfl
  unfold magnitudeOfRatio
  split
  · rw [hinf]
    exact Nat.mul_pos (by decide) (Nat.two_pow_pos 52)
  case isFalse hn =>
    have hround := roundScaled_one_le n
    have h52 : power 2 52 = 2 ^ 52 := rfl
    have hexp : ((n.log2 : Int) - 52 + 1074).toNat = n.log2 + 1022 := by omega
    dsimp only
    rw [scaleOf_one hn, hexp, h52]
    refine Nat.lt_of_le_of_lt (Nat.min_le_left _ _) ?_
    rw [hinf]
    omega

/-- An integer of up to 1023 bits is nearest to a finite double. -/
theorem isFinite_ofInt {n : Int} (h : n.natAbs.log2 < 1023) : (ofInt n).isFinite :=
  isFinite_ofSignMagnitude _ (magnitudeOfRatio_one_lt h)

end Binary64

end ScopedSql
