import CaseIntake.Number.Numeral
import CaseIntake.Proofs.Number.Ratio

/-!
# CaseIntake.Proofs.Number.Decimal

A decimal numeral is rounded to the nearest number: `toBinary64?_eq_some_iff`.

The number of digits says how large a numeral is up to a factor of ten. A numeral that is far below
the least number or far beyond the largest one is decided by that alone; any other one is a ratio of
two whole numbers.
-/

namespace CaseIntake
namespace Binary64

/-! ### Powers of ten -/

theorem ten_zpow_pos (power : ℤ) : (0 : ℚ) < 10 ^ power :=
  zpow_pos (by norm_num) power

section Decimal

variable {digits : Nat} (h : digits ≠ 0) (power : ℤ)

theorem lt_toDigits (digits : Nat) : digits < 10 ^ (Nat.toDigits 10 digits).length := by
  have hpos : 0 < (Nat.toDigits 10 digits).length := Nat.length_toDigits_pos
  exact (Nat.length_toDigits_le_iff (by decide) hpos).1 le_rfl

include h

theorem toDigits_le : 10 ^ ((Nat.toDigits 10 digits).length - 1) ≤ digits := by
  refine not_lt.1 fun hlt => ?_
  rcases Nat.eq_zero_or_pos ((Nat.toDigits 10 digits).length - 1) with hone | hmore
  · rw [hone] at hlt
    exact h (Nat.lt_one_iff.1 hlt)
  · have hshort := (Nat.length_toDigits_le_iff (by decide) hmore).2 hlt
    omega

theorem ten_zpow_le :
    (10 : ℚ) ^ ((Nat.toDigits 10 digits).length + power - 1) ≤ digits * 10 ^ power := by
  have hlen : 0 < (Nat.toDigits 10 digits).length := Nat.length_toDigits_pos
  have hle : (10 : ℚ) ^ ((Nat.toDigits 10 digits).length - 1) ≤ digits := by
    exact_mod_cast toDigits_le h
  calc (10 : ℚ) ^ ((Nat.toDigits 10 digits).length + power - 1)
      = 10 ^ ((Nat.toDigits 10 digits).length - 1) * 10 ^ power := by
        rw [← zpow_natCast, ← zpow_add₀ (by norm_num)]
        congr 1
        omega
    _ ≤ digits * 10 ^ power := mul_le_mul_of_nonneg_right hle (ten_zpow_pos _).le

end Decimal

theorem lt_ten_zpow (digits : Nat) (power : ℤ) :
    (digits : ℚ) * 10 ^ power < 10 ^ ((Nat.toDigits 10 digits).length + power) := by
  have hlt : (digits : ℚ) < 10 ^ (Nat.toDigits 10 digits).length := by
    exact_mod_cast lt_toDigits digits
  rw [zpow_add₀ (by norm_num), zpow_natCast]
  exact mul_lt_mul_of_pos_right hlt (ten_zpow_pos _)

theorem ten_zpow_eq (digits : Nat) (power : ℤ) :
    ((digits * Nat.pow 10 power.toNat : Nat) : ℚ) / (Nat.pow 10 (-power).toNat : Nat) =
      digits * 10 ^ power := by
  rw [Nat.cast_mul, cast_pow, cast_pow, zpow_eq_div, Nat.cast_ofNat, mul_div_assoc]

theorem zpow_neg_cast (a : ℚ) (n : Nat) : a ^ (-(n : ℤ)) = (a ^ n)⁻¹ := by
  rw [zpow_neg, zpow_natCast]

/-- Far below the least number. -/
theorem ten_zpow_le_of_lt {k : ℤ} (h : k < -330) : (10 : ℚ) ^ k ≤ 2 ^ (-1075 : ℤ) := by
  have hnat : 2 ^ 1075 ≤ 10 ^ 331 := by decide +kernel
  have hpow : (2 : ℚ) ^ 1075 ≤ 10 ^ 331 := by exact_mod_cast hnat
  calc (10 : ℚ) ^ k ≤ 10 ^ (-331 : ℤ) := zpow_le_zpow_right₀ (by norm_num) (by omega)
    _ = (10 ^ 331)⁻¹ := zpow_neg_cast 10 331
    _ ≤ (2 ^ 1075)⁻¹ := inv_anti₀ (pow_pos two_pos _) hpow
    _ = 2 ^ (-1075 : ℤ) := (zpow_neg_cast 2 1075).symm

/-- Far beyond the largest number. -/
theorem overflowLimit_le_ten_zpow {k : ℤ} (h : 310 < k) : overflowLimit ≤ 10 ^ (k - 1) := by
  have hnat : 2 ^ 1024 ≤ 10 ^ 310 := by decide +kernel
  have hpow : (2 : ℚ) ^ 1024 ≤ 10 ^ 310 := by exact_mod_cast hnat
  calc overflowLimit ≤ 2 ^ 1024 := sub_le_self _ (pow_pos two_pos _).le
    _ ≤ 10 ^ 310 := hpow
    _ = 10 ^ (310 : ℤ) := (zpow_natCast 10 310).symm
    _ ≤ 10 ^ (k - 1) := zpow_le_zpow_right₀ (by norm_num) (by omega)

theorem isRounding_ofDecimal (negative : Bool) (digits : Nat) (power : ℤ) :
    IsRounding negative (digits * 10 ^ power) (ofDecimal negative digits power) := by
  rcases eq_or_ne digits 0 with rfl | hdigits
  · rw [ofDecimal]
    simp only [decide_true, Bool.true_or, if_true, Nat.cast_zero, zero_mul]
    exact rounds_zero le_rfl (two_zpow_pos _).le negative
  · rw [ofDecimal]
    simp only [Bool.or_eq_true, decide_eq_true_eq, hdigits, false_or]
    split
    case isTrue hsmall =>
      have hnonneg : (0 : ℚ) ≤ digits * 10 ^ power :=
        mul_nonneg (Nat.cast_nonneg _) (ten_zpow_pos _).le
      refine rounds_zero hnonneg ((lt_ten_zpow digits power).le.trans ?_) negative
      exact ten_zpow_le_of_lt hsmall
    case isFalse hsmall =>
      split
      case isTrue hlarge =>
        exact (overflowLimit_le_ten_zpow hlarge).trans (ten_zpow_le hdigits power)
      case isFalse hlarge =>
        rw [← ten_zpow_eq]
        exact isRounding_ofRatio negative _ (Nat.pow_pos (by decide))

end Binary64

namespace Numeral

/-- The number that a numeral stands for, without its sign. -/
def magnitude (n : Numeral) : ℚ :=
  n.digits * 10 ^ (n.exponent - n.places)

theorem magnitude_whole (negative : Bool) (digits : Nat) :
    magnitude ⟨negative, digits, 0, 0⟩ = digits := by
  rw [magnitude, Nat.cast_zero, sub_zero, zpow_zero, mul_one]

theorem toBinary64?_eq_some_iff {n : Numeral} {x : Binary64} :
    n.toBinary64? = some x ↔ Binary64.Rounds n.negative n.magnitude x :=
  (Binary64.isRounding_ofDecimal n.negative n.digits (n.exponent - n.places)).eq_some_iff

theorem exists_rounds {n : Numeral} (h : n.magnitude < Binary64.overflowLimit) :
    ∃ x, Binary64.Rounds n.negative n.magnitude x :=
  (Binary64.isRounding_ofDecimal n.negative n.digits (n.exponent - n.places)).exists_rounds h

end Numeral
end CaseIntake
