import CaseIntake.Number.Binary64
import Mathlib.Algebra.Order.Field.Rat
import Mathlib.Tactic.FieldSimp
import Mathlib.Tactic.Linarith
import Mathlib.Tactic.NormNum
import Mathlib.Tactic.Positivity
import Mathlib.Tactic.Ring

/-!
# CaseIntake.Proofs.Number.Rounding

Rounding to the nearest number, an exact half going to the even mantissa, said without a way to
compute it (`Rounds`). There is at most one such number (`Rounds.unique`).

`isNearest_of_isRounded` is how one is found: a mantissa that is rounded at the unit of `v` gives
the nearest number. Numbers with larger exponents are multiples of that unit, and numbers with
smaller ones all lie below the full mantissas of it.
-/

namespace CaseIntake

/-! ## Rounding to a whole number -/

/-- A whole number at most a half away from `t`, and even if it is a half away. -/
structure IsRounded (t : ℚ) (m : Nat) : Prop where
  near : |(m : ℚ) - t| ≤ 1 / 2
  even : |(m : ℚ) - t| = 1 / 2 → m % 2 = 0

theorem isRounded_roundHalfEven (num : Nat) {den : Nat} (hden : 0 < den) :
    IsRounded (num / den) (roundHalfEven num den) := by
  have hpos : (0 : ℚ) < den := by exact_mod_cast hden
  have hrest : num % den < den := Nat.mod_lt _ hden
  have hnum : (num : ℚ) / den = (num / den : Nat) + (num % den : Nat) / den := by
    have hcast : (num : ℚ) = den * (num / den : Nat) + (num % den : Nat) := by
      exact_mod_cast (Nat.div_add_mod num den).symm
    field_simp
    linarith
  rw [hnum, roundHalfEven]
  generalize num / den = below
  generalize num % den = rest at hrest
  have hle : (1 : ℚ) / 2 ≤ rest / den ↔ den ≤ 2 * rest := by
    rw [div_le_div_iff₀ two_pos hpos]
    norm_cast
    rw [Nat.one_mul, Nat.mul_comm rest]
  have hge : (rest : ℚ) / den ≤ 1 / 2 ↔ 2 * rest ≤ den := by
    rw [div_le_div_iff₀ hpos two_pos]
    norm_cast
    rw [Nat.one_mul, Nat.mul_comm rest]
  have hlt : (rest : ℚ) / den < 1 := by
    rw [div_lt_one hpos]
    exact_mod_cast hrest
  have hnonneg : (0 : ℚ) ≤ rest / den := by positivity
  split
  case isTrue h =>
    simp only [Bool.or_eq_true, Bool.and_eq_true, decide_eq_true_eq] at h
    have hdist : |((below + 1 : Nat) : ℚ) - (below + rest / den)| = 1 - rest / den := by
      push_cast
      rw [abs_of_nonneg] <;> linarith
    have hhalf := hle.2 (by omega)
    refine ⟨by linarith, fun htie => ?_⟩
    have := hge.1 (by linarith)
    omega
  case isFalse h =>
    simp only [Bool.or_eq_true, Bool.and_eq_true, decide_eq_true_eq] at h
    have hdist : |(below : ℚ) - (below + rest / den)| = rest / den := by
      rw [abs_sub_comm, abs_of_nonneg] <;> linarith
    have hhalf := hge.2 (by omega)
    refine ⟨by linarith, fun htie => ?_⟩
    have := hle.1 (by linarith)
    omega

theorem one_le_dist_of_ne {k m : Nat} (h : k ≠ m) : (1 : ℚ) ≤ |(k : ℚ) - m| := by
  have hint : (1 : ℤ) ≤ |(k : ℤ) - m| := Int.one_le_abs (by omega)
  exact_mod_cast hint

section IsRounded

variable {t : ℚ} {k m : Nat} (h : IsRounded t m)

include h

/-- No whole number is nearer. -/
theorem IsRounded.le : |(m : ℚ) - t| ≤ |(k : ℚ) - t| := by
  rcases eq_or_ne k m with rfl | hne
  · exact le_rfl
  · have hapart := one_le_dist_of_ne hne
    have htriangle := abs_sub_le (k : ℚ) t m
    rw [abs_sub_comm t] at htriangle
    have hnear := h.near
    linarith

/-- Another whole number is as near only at an exact half. -/
theorem IsRounded.even_of_tie (hne : k ≠ m) (htie : |(k : ℚ) - t| = |(m : ℚ) - t|) :
    m % 2 = 0 := by
  have hapart := one_le_dist_of_ne hne
  have htriangle := abs_sub_le (k : ℚ) t m
  rw [abs_sub_comm t, htie] at htriangle
  have hnear := h.near
  exact h.even (by linarith)

theorem IsRounded.le_of_le (hk : (k : ℚ) ≤ t) : k ≤ m := by
  have hnear := abs_le.1 h.near
  have hlt : (k : ℚ) < (m + 1 : Nat) := by
    push_cast
    linarith
  have : k < m + 1 := by exact_mod_cast hlt
  omega

theorem IsRounded.le_of_lt (hk : t < k) : m ≤ k := by
  have hnear := abs_le.1 h.near
  have hlt : (m : ℚ) < (k + 1 : Nat) := by
    push_cast
    linarith
  have : m < k + 1 := by exact_mod_cast hlt
  omega

end IsRounded

/-! ## Nearest numbers -/

namespace Binary64

/-- The number without its sign. -/
def magnitude (x : Binary64) : ℚ :=
  x.mantissa * 2 ^ x.exponent

/-- No finite number is nearer to `v`, and if another one is as near, the mantissa is even. -/
structure IsNearest (v : ℚ) (x : Binary64) : Prop where
  nearest : ∀ y : Binary64, |x.magnitude - v| ≤ |y.magnitude - v|
  even : ∀ y : Binary64, y.magnitude ≠ x.magnitude → |y.magnitude - v| = |x.magnitude - v| →
    x.mantissa % 2 = 0

/-- Half way from the largest finite number to the next power of two. What lies below it is rounded
to a finite number. -/
def overflowLimit : ℚ :=
  2 ^ 1024 - 2 ^ 970

/-- The number that `± v` is rounded to. -/
structure Rounds (negative : Bool) (v : ℚ) (x : Binary64) : Prop extends IsNearest v x where
  sign : x.negative = negative
  finite : v < overflowLimit

/-- What rounding `± v` has to give: nothing if `v` is nearer to infinity than to any number. -/
def IsRounding (negative : Bool) (v : ℚ) : Option Binary64 → Prop
  | some x => Rounds negative v x
  | none => overflowLimit ≤ v

theorem two_zpow_pos (q : ℤ) : (0 : ℚ) < 2 ^ q :=
  zpow_pos two_pos q

/-! ### Multiples of a unit -/

section Multiples

variable {x y : Binary64} {q : ℤ}

theorem mantissa_lt (x : Binary64) : x.mantissa < 2 ^ 53 := by
  rcases x.canonical with ⟨-, h⟩ | ⟨-, -, -, h⟩ <;> exact h

theorem exponent_ge (x : Binary64) : -1074 ≤ x.exponent := by
  rcases x.canonical with ⟨h, -⟩ | ⟨h, -, -, -⟩ <;> omega

theorem mantissa_ge (h : -1074 < x.exponent) : 2 ^ 52 ≤ x.mantissa := by
  rcases x.canonical with ⟨h', -⟩ | ⟨-, -, h', -⟩
  · omega
  · exact h'

/-- A number is a multiple of the unit of its exponent, and of all smaller ones. -/
theorem exists_multiple (h : q ≤ x.exponent) :
    ∃ k : Nat, x.magnitude = k * 2 ^ q ∧ (q < x.exponent ∨ x.mantissa % 2 = 0 → k % 2 = 0) := by
  obtain ⟨n, hn⟩ := Int.eq_ofNat_of_zero_le (Int.sub_nonneg.2 h)
  have hexponent : x.exponent = n + q := by omega
  refine ⟨x.mantissa * 2 ^ n, ?_, fun heven => ?_⟩
  · rw [magnitude, hexponent, zpow_add₀ two_ne_zero, zpow_natCast]
    push_cast
    ring
  · rcases heven with hlt | heven
    · obtain ⟨k, rfl⟩ : ∃ k, n = k + 1 := ⟨n - 1, by omega⟩
      rw [Nat.pow_succ, ← Nat.mul_assoc, Nat.mul_mod_left]
    · rw [Nat.mul_mod, heven, Nat.zero_mul, Nat.zero_mod]

/-- Below the full mantissas at a unit stand all numbers with smaller exponents. -/
theorem magnitude_lt (h : x.exponent < q) : x.magnitude < 2 ^ 52 * 2 ^ q := by
  have hmantissa : (x.mantissa : ℚ) < 2 ^ 53 := by exact_mod_cast x.mantissa_lt
  have hunit : (2 : ℚ) ^ (x.exponent + 1) ≤ 2 ^ q :=
    zpow_le_zpow_right₀ one_le_two (by omega)
  rw [zpow_add_one₀ two_ne_zero] at hunit
  calc x.magnitude < 2 ^ 53 * 2 ^ x.exponent :=
        mul_lt_mul_of_pos_right hmantissa (two_zpow_pos _)
    _ = 2 ^ 52 * (2 ^ x.exponent * 2) := by ring
    _ ≤ 2 ^ 52 * 2 ^ q := mul_le_mul_of_nonneg_left hunit (by positivity)

theorem le_magnitude (h : -1074 < x.exponent) : 2 ^ 52 * 2 ^ x.exponent ≤ x.magnitude := by
  have hmantissa : (2 ^ 52 : ℚ) ≤ x.mantissa := by exact_mod_cast mantissa_ge h
  exact mul_le_mul_of_nonneg_right hmantissa (two_zpow_pos _).le

theorem magnitude_lt_of_exponent_lt (h : x.exponent < y.exponent) : x.magnitude < y.magnitude := by
  have hfull : -1074 < y.exponent := by
    have := x.exponent_ge
    omega
  exact (magnitude_lt h).trans_le (le_magnitude hfull)

theorem dist_multiple (k v : ℚ) (q : ℤ) : |k * 2 ^ q - v| = |k - v / 2 ^ q| * 2 ^ q := by
  have hpos := two_zpow_pos q
  rw [← abs_of_pos hpos, ← abs_mul, abs_of_pos hpos, sub_mul, div_mul_cancel₀ _ hpos.ne']

end Multiples

/-! ### Rounding to a multiple of a unit -/

/-- The unit at which `v` has a full mantissa, or the least one. -/
structure HasUnit (v : ℚ) (q : ℤ) : Prop where
  least : -1074 ≤ q
  upper : v < 2 ^ 53 * 2 ^ q
  lower : q = -1074 ∨ 2 ^ 52 * 2 ^ q ≤ v

section Nearest

variable {v : ℚ} {q : ℤ} {m : Nat} {x : Binary64} (hunit : HasUnit v q)
  (hround : IsRounded (v / 2 ^ q) m) (hx : x.magnitude = m * 2 ^ q)

include hunit hround hx

/-- Numbers with smaller exponents are further away. -/
theorem dist_lt_of_exponent_lt {y : Binary64} (h : y.exponent < q) :
    |x.magnitude - v| < |y.magnitude - v| := by
  have hlower : 2 ^ 52 * 2 ^ q ≤ v := by
    refine hunit.lower.resolve_left ?_
    have := y.exponent_ge
    omega
  have hy := magnitude_lt h
  have hnear : |(m : ℚ) - v / 2 ^ q| ≤ |((2 ^ 52 : Nat) : ℚ) - v / 2 ^ q| := hround.le
  calc |x.magnitude - v| = |(m : ℚ) - v / 2 ^ q| * 2 ^ q := by rw [hx, dist_multiple]
    _ ≤ |((2 ^ 52 : Nat) : ℚ) - v / 2 ^ q| * 2 ^ q :=
        mul_le_mul_of_nonneg_right hnear (two_zpow_pos q).le
    _ = v - 2 ^ 52 * 2 ^ q := by
        rw [← dist_multiple, abs_sub_comm, abs_of_nonneg] <;> push_cast <;> linarith
    _ < v - y.magnitude := by linarith
    _ = |y.magnitude - v| := by rw [abs_sub_comm, abs_of_nonneg]; linarith

theorem isNearest_of_isRounded (heven : m % 2 = 0 → x.mantissa % 2 = 0) : IsNearest v x := by
  refine ⟨fun y => ?_, fun y hne htie => ?_⟩
  · rcases lt_or_ge y.exponent q with hlt | hge
    · exact (dist_lt_of_exponent_lt hunit hround hx hlt).le
    · obtain ⟨k, hk, -⟩ := exists_multiple hge
      rw [hx, hk, dist_multiple, dist_multiple]
      exact mul_le_mul_of_nonneg_right hround.le (two_zpow_pos q).le
  · rcases lt_or_ge y.exponent q with hlt | hge
    · exact absurd htie (dist_lt_of_exponent_lt hunit hround hx hlt).ne'
    · obtain ⟨k, hk, -⟩ := exists_multiple hge
      rw [hx, hk, dist_multiple, dist_multiple] at htie
      refine heven (hround.even_of_tie ?_ (mul_right_cancel₀ (two_zpow_pos q).ne' htie))
      rintro rfl
      exact hne (hk.trans hx.symm)

end Nearest

/-! ### Two nearest numbers -/

theorem eq_of_magnitude_eq {x y : Binary64} (hsign : x.negative = y.negative)
    (h : x.magnitude = y.magnitude) : x = y := by
  have hexponent : x.exponent = y.exponent := by
    rcases lt_trichotomy x.exponent y.exponent with hlt | heq | hgt
    · exact absurd h (magnitude_lt_of_exponent_lt hlt).ne
    · exact heq
    · exact absurd h (magnitude_lt_of_exponent_lt hgt).ne'
  have hmantissa : (x.mantissa : ℚ) = y.mantissa := by
    rw [magnitude, magnitude, hexponent] at h
    exact mul_right_cancel₀ (two_zpow_pos _).ne' h
  obtain ⟨xs, xm, xe, hx⟩ := x
  obtain ⟨ys, ym, ye, hy⟩ := y
  simp only at hsign hexponent hmantissa
  obtain rfl : xm = ym := by exact_mod_cast hmantissa
  obtain rfl := hsign
  obtain rfl := hexponent
  rfl

/-- Between two numbers with even mantissas there is another one. -/
theorem exists_between {x y : Binary64} (hx : x.mantissa % 2 = 0) (hy : y.mantissa % 2 = 0)
    (hlt : x.magnitude < y.magnitude) : ∃ z : Binary64, x.magnitude < z.magnitude ∧
      z.magnitude < y.magnitude := by
  have hfits : Canonical (x.mantissa + 1) x.exponent := by
    have hroom : x.mantissa + 1 < 2 ^ 53 := by
      have := x.mantissa_lt
      omega
    rcases x.canonical with ⟨hexponent, -⟩ | ⟨hlow, hhigh, hfull, -⟩
    · exact Or.inl ⟨hexponent, hroom⟩
    · exact Or.inr ⟨hlow, hhigh, Nat.le_succ_of_le hfull, hroom⟩
  have hle : x.exponent ≤ y.exponent := by
    refine not_lt.1 fun hgt => ?_
    exact absurd hlt (magnitude_lt_of_exponent_lt hgt).not_gt
  obtain ⟨k, hk, heven⟩ := exists_multiple hle
  have hpos := two_zpow_pos x.exponent
  have hsucc : x.mantissa + 1 < k := by
    rw [hk, magnitude, mul_lt_mul_iff_left₀ hpos] at hlt
    have hk2 := heven (Or.inr hy)
    have hlt' : x.mantissa < k := by exact_mod_cast hlt
    omega
  refine ⟨⟨x.negative, x.mantissa + 1, x.exponent, hfits⟩, ?_, ?_⟩
  · refine mul_lt_mul_of_pos_right ?_ hpos
    exact_mod_cast Nat.lt_succ_self _
  · rw [hk]
    refine mul_lt_mul_of_pos_right ?_ hpos
    exact_mod_cast hsucc

theorem not_isNearest_of_lt {v : ℚ} {x y : Binary64} (hx : IsNearest v x) (hy : IsNearest v y)
    (hlt : x.magnitude < y.magnitude) : False := by
  have htie : |y.magnitude - v| = |x.magnitude - v| := (hy.nearest x).antisymm (hx.nearest y)
  obtain ⟨z, hxz, hzy⟩ :=
    exists_between (hx.even y hlt.ne' htie) (hy.even x hlt.ne htie.symm) hlt
  -- the two are as far from `v` as from the middle between them, and the third is nearer
  have hmiddle : y.magnitude - v = v - x.magnitude := by
    rcases abs_eq_abs.1 htie with h | h <;> linarith
  have hnear := hx.nearest z
  rw [abs_sub_comm x.magnitude, abs_of_pos (by linarith : 0 < v - x.magnitude)] at hnear
  rcases le_abs'.1 hnear with h | h <;> linarith

theorem Rounds.unique {negative : Bool} {v : ℚ} {x y : Binary64} (hx : Rounds negative v x)
    (hy : Rounds negative v y) : x = y := by
  refine eq_of_magnitude_eq (hx.sign.trans hy.sign.symm) ?_
  rcases lt_trichotomy x.magnitude y.magnitude with hlt | heq | hgt
  · exact (not_isNearest_of_lt hx.toIsNearest hy.toIsNearest hlt).elim
  · exact heq
  · exact (not_isNearest_of_lt hy.toIsNearest hx.toIsNearest hgt).elim

/-- Rounding has one result only. -/
theorem IsRounding.eq_some_iff {negative : Bool} {v : ℚ} {o : Option Binary64}
    (h : IsRounding negative v o) {x : Binary64} : o = some x ↔ Rounds negative v x := by
  constructor
  · rintro rfl
    exact h
  · intro hx
    cases o with
    | none => exact absurd hx.finite (not_lt.2 h)
    | some y => rw [Rounds.unique h hx]

theorem IsRounding.exists_rounds {negative : Bool} {v : ℚ} {o : Option Binary64}
    (h : IsRounding negative v o) (hlimit : v < overflowLimit) : ∃ x, Rounds negative v x := by
  cases o with
  | none => exact absurd hlimit (not_lt.2 h)
  | some x => exact ⟨x, h⟩

end Binary64
end CaseIntake
