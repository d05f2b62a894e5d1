import CaseIntake.Proofs.Number.Rounding

/-!
# CaseIntake.Proofs.Number.Ratio

A ratio of two whole numbers is rounded to the nearest number: `isRounding_ofRatio`.

`hasUnit_unitOf`: the binary logarithms give the unit at which the ratio has a full mantissa.
`isRounding_ofMantissa`: a mantissa that is rounded there is that of the result, also if rounding
carries it to the next power of two, and there is no room for it iff the ratio is too large.
-/

namespace CaseIntake
namespace Binary64

/-! ### The unit of a ratio -/

section Unit

variable {num den : Nat}

theorem scale_pos (num : Nat) {den : Nat} (hden : 0 < den) (q : ℤ) : 0 < (scale num den q).2 :=
  Nat.mul_pos hden (Nat.two_pow_pos _)

theorem cast_pow (b k : Nat) : ((Nat.pow b k : Nat) : ℚ) = b ^ k :=
  Nat.cast_pow b k

/-- A power as a ratio of powers with natural exponents, one of which is zero. -/
theorem zpow_eq_div (b : ℚ) (q : ℤ) : b ^ q = b ^ q.toNat / b ^ (-q).toNat := by
  obtain ⟨k, rfl | rfl⟩ := q.eq_nat_or_neg
  · have hzero : (-(k : ℤ)).toNat = 0 := by omega
    rw [hzero, Int.toNat_natCast, zpow_natCast, pow_zero, div_one]
  · have hzero : (-(k : ℤ)).toNat = 0 := by omega
    rw [neg_neg, hzero, Int.toNat_natCast, zpow_neg, zpow_natCast, pow_zero, one_div]

theorem scale_eq (num den : Nat) (q : ℤ) :
    ((scale num den q).1 : ℚ) / (scale num den q).2 = num / den / 2 ^ q := by
  rw [scale, Nat.cast_mul, Nat.cast_mul, cast_pow, cast_pow, zpow_eq_div, Nat.cast_ofNat,
    div_div_div_eq]

theorem scale_div_lt_iff (num : Nat) (hden : 0 < den) (q : ℤ) (k : Nat) :
    (scale num den q).1 / (scale num den q).2 < k ↔ (num : ℚ) / den < k * 2 ^ q := by
  have hpos : (0 : ℚ) < (scale num den q).2 := by exact_mod_cast scale_pos num hden q
  rw [← div_lt_iff₀ (two_zpow_pos q), ← scale_eq, div_lt_iff₀ hpos,
    Nat.div_lt_iff_lt_mul (scale_pos num hden q)]
  exact_mod_cast Iff.rfl

theorem log2_bounds {n : Nat} (h : n ≠ 0) :
    (2 : ℚ) ^ (n.log2 : ℤ) ≤ n ∧ (n : ℚ) < 2 * 2 ^ (n.log2 : ℤ) := by
  constructor
  · rw [zpow_natCast]
    exact_mod_cast Nat.log2_self_le h
  · rw [zpow_natCast, mul_comm, ← pow_succ]
    exact_mod_cast Nat.lt_log2_self

theorem hasUnit_max {v : ℚ} {q : ℤ} (hupper : v < 2 ^ 53 * 2 ^ q) (hlower : 2 ^ 52 * 2 ^ q ≤ v) :
    HasUnit v (max (-1074) q) := by
  rcases le_total q (-1074) with h | h
  · rw [max_eq_left h]
    refine ⟨le_rfl, hupper.trans_le ?_, Or.inl rfl⟩
    exact mul_le_mul_of_nonneg_left (zpow_le_zpow_right₀ one_le_two h) (by positivity)
  · rw [max_eq_right h]
    exact ⟨h, hupper, Or.inr hlower⟩

theorem hasUnit_unitOf (hnum : num ≠ 0) (hden : 0 < den) :
    HasUnit (num / den) (unitOf num den) := by
  obtain ⟨hnumle, hnumlt⟩ := log2_bounds hnum
  obtain ⟨hdenle, hdenlt⟩ := log2_bounds hden.ne'
  have hpos : (0 : ℚ) < den := by exact_mod_cast hden
  set q : ℤ := (num.log2 : ℤ) - den.log2 - 53 with hq
  have hsplit : (2 : ℚ) ^ (num.log2 : ℤ) = 2 ^ 53 * 2 ^ q * 2 ^ (den.log2 : ℤ) := by
    rw [← zpow_natCast 2 53, ← zpow_add₀ two_ne_zero, ← zpow_add₀ two_ne_zero]
    congr 1
    push_cast
    omega
  have hunitpos := two_zpow_pos q
  have hlower : 2 ^ 52 * 2 ^ q ≤ (num : ℚ) / den := by
    rw [le_div_iff₀ hpos]
    calc 2 ^ 52 * 2 ^ q * (den : ℚ) ≤ 2 ^ 52 * 2 ^ q * (2 * 2 ^ (den.log2 : ℤ)) :=
          mul_le_mul_of_nonneg_left hdenlt.le (by positivity)
      _ = 2 ^ (num.log2 : ℤ) := by rw [hsplit]; ring
      _ ≤ num := hnumle
  have hupper : (num : ℚ) / den < 2 ^ 54 * 2 ^ q := by
    rw [div_lt_iff₀ hpos]
    calc (num : ℚ) < 2 * 2 ^ (num.log2 : ℤ) := hnumlt
      _ = 2 ^ 54 * 2 ^ q * 2 ^ (den.log2 : ℤ) := by rw [hsplit]; ring
      _ ≤ 2 ^ 54 * 2 ^ q * den := mul_le_mul_of_nonneg_left hdenle (by positivity)
  have hunit : unitOf num den = max (-1074)
      (if (scale num den q).1 / (scale num den q).2 < 2 ^ 53 then q else q + 1) := rfl
  have htest := scale_div_lt_iff num hden q (2 ^ 53)
  rw [hunit]
  split
  case isTrue h =>
    refine hasUnit_max ?_ hlower
    exact_mod_cast htest.1 h
  case isFalse h =>
    have hge := mt htest.2 h
    push_cast at hge
    refine hasUnit_max ?_ ?_ <;> rw [zpow_add_one₀ two_ne_zero] <;> linarith

end Unit

/-! ### The result -/

theorem overflowLimit_eq : overflowLimit = (2 ^ 53 - 1 / 2) * 2 ^ (971 : ℤ) := by
  have hhalf : (2 : ℚ) ^ 971 = 2 ^ 970 * 2 := pow_succ 2 970
  have hlast : (2 : ℚ) ^ 1024 = 2 ^ 53 * 2 ^ 971 := pow_add 2 53 971
  have hcast : (2 : ℚ) ^ (971 : ℤ) = 2 ^ 971 := zpow_natCast 2 971
  rw [overflowLimit, hcast, hlast, hhalf]
  generalize (2 : ℚ) ^ 970 = u
  ring

section Result

variable {v : ℚ} {q : ℤ} {m : Nat} (hunit : HasUnit v q) (hround : IsRounded (v / 2 ^ q) m)

include hround in
theorem overflowLimit_le (hfull : m = 2 ^ 53) (hq : 971 ≤ q) : overflowLimit ≤ v := by
  have hnear := (abs_le.1 hround.near).2
  have hscaled : (2 ^ 53 - 1 / 2 : ℚ) ≤ v / 2 ^ q := by
    rw [hfull] at hnear
    push_cast at hnear
    linarith
  rw [le_div_iff₀ (two_zpow_pos q)] at hscaled
  rw [overflowLimit_eq]
  refine le_trans (mul_le_mul_of_nonneg_left ?_ (by norm_num)) hscaled
  exact zpow_le_zpow_right₀ one_le_two hq

include hunit in
theorem overflowLimit_le_of_lt (hq : 971 < q) : overflowLimit ≤ v := by
  have hlower := hunit.lower.resolve_left (by omega)
  rw [overflowLimit_eq]
  refine le_trans ?_ hlower
  calc (2 ^ 53 - 1 / 2 : ℚ) * 2 ^ (971 : ℤ) ≤ 2 ^ 52 * 2 ^ ((971 : ℤ) + 1) := by
        rw [zpow_add_one₀ two_ne_zero]
        have hpos := two_zpow_pos 971
        generalize (2 : ℚ) ^ (971 : ℤ) = u at hpos
        linarith
    _ ≤ 2 ^ 52 * 2 ^ q :=
        mul_le_mul_of_nonneg_left (zpow_le_zpow_right₀ one_le_two (by omega)) (by positivity)

include hunit in
theorem lt_overflowLimit_of_lt (hq : q < 971) : v < overflowLimit := by
  refine hunit.upper.trans_le ?_
  have hle : (2 : ℚ) ^ (q + 1) ≤ 2 ^ (971 : ℤ) := zpow_le_zpow_right₀ one_le_two (by omega)
  rw [zpow_add_one₀ two_ne_zero] at hle
  rw [overflowLimit_eq]
  have hpos := two_zpow_pos q
  generalize (2 : ℚ) ^ (971 : ℤ) = u at hle
  linarith

include hround in
/-- A value is not rounded up to the next power of two only if it is below the last half way to
it. -/
theorem lt_overflowLimit (hlt : m < 2 ^ 53) (hq : q ≤ 971) : v < overflowLimit := by
  have hscaled : v / 2 ^ q < 2 ^ 53 - 1 / 2 := by
    have hm : (m : ℚ) + 1 ≤ 2 ^ 53 := by exact_mod_cast hlt
    have hnear := (abs_le.1 hround.near).1
    refine lt_of_le_of_ne (by linarith) fun heq => ?_
    have hodd : m + 1 = 2 ^ 53 := by
      have hge : (2 ^ 53 : ℚ) ≤ (m : ℚ) + 1 := by linarith
      have hge' : 2 ^ 53 ≤ m + 1 := by exact_mod_cast hge
      omega
    have hcast : (m : ℚ) = 2 ^ 53 - 1 := by
      rw [eq_sub_iff_add_eq]
      exact_mod_cast hodd
    have heven := hround.even (by rw [heq, hcast]; norm_num)
    omega
  rw [div_lt_iff₀ (two_zpow_pos q)] at hscaled
  rw [overflowLimit_eq]
  refine hscaled.trans_le (mul_le_mul_of_nonneg_left ?_ (by norm_num))
  exact zpow_le_zpow_right₀ one_le_two hq

end Result

/-- Below half of the least unit there is nothing nearer than zero. -/
theorem rounds_zero {v : ℚ} (hpos : 0 ≤ v) (h : v ≤ 2 ^ (-1075 : ℤ)) (negative : Bool) :
    Rounds negative v (zero negative) := by
  have hhalf : v ≤ 1 / 2 * 2 ^ (-1074 : ℤ) := by
    rwa [show (-1074 : ℤ) = -1075 + 1 from rfl, zpow_add_one₀ two_ne_zero, mul_comm (1 / 2 : ℚ),
      mul_assoc, mul_one_div_cancel two_ne_zero, mul_one]
  have hupos := two_zpow_pos (-1074)
  have hround : IsRounded (v / 2 ^ (-1074 : ℤ)) 0 := by
    refine ⟨?_, fun _ => rfl⟩
    rw [Nat.cast_zero, zero_sub, abs_neg, abs_of_nonneg (div_nonneg hpos hupos.le)]
    exact (div_le_iff₀ hupos).2 hhalf
  have hunit : HasUnit v (-1074) := by
    refine ⟨le_rfl, hhalf.trans_lt (mul_lt_mul_of_pos_right ?_ hupos), Or.inl rfl⟩
    norm_num
  refine ⟨isNearest_of_isRounded hunit hround ?_ fun _ => rfl, rfl, ?_⟩
  · rw [magnitude, zero, Nat.cast_zero, zero_mul]
  · exact lt_overflowLimit hround (by norm_num) (by norm_num)

/-- The number with the mantissa `m` at the unit `q`, if there is room for it. A mantissa of one bit
too many is a full one at the next unit. -/
def ofMantissa (negative : Bool) (m : Nat) (q : ℤ) : Option Binary64 :=
  let (m, q) := if m = Nat.pow 2 53 then (Nat.pow 2 52, q + 1) else (m, q)
  if h : Canonical m q then some ⟨negative, m, q, h⟩ else none

theorem ofRatio_eq_ofMantissa (negative : Bool) {num : Nat} (hnum : num ≠ 0) (den : Nat) :
    ofRatio negative num den = ofMantissa negative
      (roundHalfEven (scale num den (unitOf num den)).1 (scale num den (unitOf num den)).2)
      (unitOf num den) := by
  rw [ofRatio, if_neg hnum]
  rfl

section Mantissa

variable {v : ℚ} {q : ℤ} {m : Nat} (hunit : HasUnit v q) (hround : IsRounded (v / 2 ^ q) m)
  (negative : Bool)

include hunit hround

theorem isRounding_ofMantissa_full (hfull : m = 2 ^ 53) :
    IsRounding negative v (ofMantissa negative m q) := by
  have hleast := hunit.least
  have hcanonical : Canonical (Nat.pow 2 52) (q + 1) ↔ q < 971 := by
    have hroom : Nat.pow 2 52 ≤ Nat.pow 2 52 ∧ Nat.pow 2 52 < Nat.pow 2 53 := by decide
    constructor
    · rintro (⟨h, -⟩ | ⟨-, h, -⟩) <;> omega
    · intro h
      exact Or.inr ⟨by omega, by omega, hroom⟩
  have hpow : m = Nat.pow 2 53 := hfull
  rw [ofMantissa, if_pos hpow]
  simp only
  split
  case isTrue h =>
    have hfinite := lt_overflowLimit_of_lt hunit (hcanonical.1 h)
    have heven : Nat.pow 2 52 % 2 = 0 := by decide
    refine ⟨isNearest_of_isRounded hunit hround ?_ fun _ => heven, rfl, hfinite⟩
    rw [magnitude, hfull, zpow_add_one₀ two_ne_zero, cast_pow]
    push_cast
    ring
  case isFalse h =>
    exact overflowLimit_le hround hfull (not_lt.1 fun hq => h (hcanonical.2 hq))

theorem isRounding_ofMantissa_of_lt (hlt : m < 2 ^ 53) :
    IsRounding negative v (ofMantissa negative m q) := by
  have hcanonical : Canonical m q ↔ q ≤ 971 := by
    constructor
    · rintro (⟨h, -⟩ | ⟨-, h, -⟩) <;> omega
    · intro h
      rcases eq_or_lt_of_le hunit.least with heq | hgt
      · exact Or.inl ⟨heq.symm, hlt⟩
      · have hlower := hunit.lower.resolve_left hgt.ne'
        refine Or.inr ⟨hgt, h, hround.le_of_le ?_, hlt⟩
        rw [cast_pow, Nat.cast_ofNat, le_div_iff₀ (two_zpow_pos q)]
        exact hlower
  have hpow : m ≠ Nat.pow 2 53 := hlt.ne
  rw [ofMantissa, if_neg hpow]
  simp only
  split
  case isTrue h =>
    have hfinite := lt_overflowLimit hround hlt (hcanonical.1 h)
    exact ⟨isNearest_of_isRounded hunit hround rfl id, rfl, hfinite⟩
  case isFalse h =>
    exact overflowLimit_le_of_lt hunit (not_le.1 fun hq => h (hcanonical.2 hq))

theorem isRounding_ofMantissa : IsRounding negative v (ofMantissa negative m q) := by
  have hle : m ≤ 2 ^ 53 := by
    refine hround.le_of_lt ?_
    rw [div_lt_iff₀ (two_zpow_pos q)]
    exact_mod_cast hunit.upper
  rcases eq_or_lt_of_le hle with hfull | hlt
  · exact isRounding_ofMantissa_full hunit hround negative hfull
  · exact isRounding_ofMantissa_of_lt hunit hround negative hlt

end Mantissa

theorem isRounding_ofRatio (negative : Bool) (num : Nat) {den : Nat} (hden : 0 < den) :
    IsRounding negative (num / den) (ofRatio negative num den) := by
  rcases eq_or_ne num 0 with rfl | hnum
  · rw [ofRatio, if_pos rfl, Nat.cast_zero, zero_div]
    exact rounds_zero le_rfl (two_zpow_pos _).le negative
  · have hround := isRounded_roundHalfEven (scale num den (unitOf num den)).1
      (scale_pos num hden (unitOf num den))
    rw [scale_eq] at hround
    rw [ofRatio_eq_ofMantissa negative hnum]
    exact isRounding_ofMantissa (hasUnit_unitOf hnum hden) hround negative

end Binary64
end CaseIntake
