import Mathlib.Tactic.Linarith
import Mathlib.Tactic.NormNum
import RequestPlan.Binary64
import RequestPlan.Proofs.DecimalDigits
import RequestPlan.Scalar

/-!
# The nearest binary64 number

Where the number nearest to a fraction lies. Its power of two is the one just below the fraction,
and the fraction has at most 2⁵³ units of its last bit.

* `zpow_binaryExponent_le`, `lt_zpow_binaryExponent_add_one`: the powers of two around a fraction;
* `nearest_congr`, `Decimal.toBinary64_congr`: equal fractions have one nearest number;
* `roundToUnit_le`: rounding to a unit does not pass a whole number of units;
* `isFinite_nearest`: far enough below the end of the range the nearest number is finite;
* `Decimal.isFinite_toBinary64`: no few digits reach that end without being an integer.
-/

namespace RequestPlan

namespace Binary64

variable {num den num' den' : ℕ}

/-- Shifting the numerator or the denominator divides the fraction by a power of two. -/
theorem shiftLeft_div_shiftLeft (num den : ℕ) (unit : ℤ) :
    ((num <<< (-unit).toNat : ℕ) : ℚ) / (den <<< unit.toNat : ℕ) = num / den / 2 ^ unit := by
  obtain ⟨k, rfl | rfl⟩ := unit.eq_nat_or_neg
  · simp [Nat.shiftLeft_eq, div_div]
  · simp [Nat.shiftLeft_eq, div_mul_eq_mul_div]

theorem shiftLeft_pos (hden : 0 < den) (k : ℕ) : 0 < den <<< k := by
  rw [Nat.shiftLeft_eq]
  exact Nat.mul_pos hden (Nat.two_pow_pos k)

/-- A whole number of units is compared with the fraction as the shifted numbers are. -/
theorem le_mul_shiftLeft_iff (hden : 0 < den) (n : ℕ) (unit : ℤ) :
    num <<< (-unit).toNat ≤ n * den <<< unit.toNat ↔ (num : ℚ) / den ≤ n * 2 ^ unit := by
  have hpos : (0 : ℚ) < (den <<< unit.toNat : ℕ) := by exact_mod_cast shiftLeft_pos hden _
  rw [← div_le_iff₀ (by positivity), ← shiftLeft_div_shiftLeft, div_le_iff₀ hpos]
  exact_mod_cast Iff.rfl

theorem shiftLeft_le_shiftLeft_iff (hden : 0 < den) (unit : ℤ) :
    den <<< unit.toNat ≤ num <<< (-unit).toNat ↔ (2 : ℚ) ^ unit ≤ num / den := by
  have hpos : (0 : ℚ) < (den <<< unit.toNat : ℕ) := by exact_mod_cast shiftLeft_pos hden _
  rw [← @Nat.cast_le ℚ, ← one_le_div₀ hpos, shiftLeft_div_shiftLeft, one_le_div₀ (by positivity)]

/-- The lengths of the numbers leave two powers of two for the greatest one below a fraction. -/
theorem zpow_log2_sub_log2 (hnum : 0 < num) (hden : 0 < den) :
    (2 : ℚ) ^ ((num.log2 : ℤ) - den.log2 - 1) ≤ num / den ∧
      (num : ℚ) / den < 2 ^ ((num.log2 : ℤ) - den.log2 + 1) := by
  have htwo : (2 : ℚ) ≠ 0 := by norm_num
  have hnumLow : (2 : ℚ) ^ (num.log2 : ℤ) ≤ num := by
    exact_mod_cast Nat.log2_self_le hnum.ne'
  have hnumHigh : (num : ℚ) < 2 ^ ((num.log2 : ℤ) + 1) := by
    exact_mod_cast Nat.lt_log2_self
  have hdenLow : (2 : ℚ) ^ (den.log2 : ℤ) ≤ den := by
    exact_mod_cast Nat.log2_self_le hden.ne'
  have hdenHigh : (den : ℚ) ≤ 2 ^ ((den.log2 : ℤ) + 1) := by
    exact_mod_cast Nat.lt_log2_self.le
  constructor
  · rw [sub_sub, zpow_sub₀ htwo]
    exact div_le_div₀ (by positivity) hnumLow (by exact_mod_cast hden) hdenHigh
  · rw [sub_add_eq_add_sub, zpow_sub₀ htwo]
    exact div_lt_div₀ hnumHigh hdenLow (by positivity) (by positivity)

theorem zpow_binaryExponent_le (hnum : 0 < num) (hden : 0 < den) :
    (2 : ℚ) ^ binaryExponent num den ≤ num / den := by
  rw [binaryExponent]
  split
  · next h => exact (shiftLeft_le_shiftLeft_iff hden _).1 h
  · exact (zpow_log2_sub_log2 hnum hden).1

theorem lt_zpow_binaryExponent_add_one (hnum : 0 < num) (hden : 0 < den) :
    (num : ℚ) / den < 2 ^ (binaryExponent num den + 1) := by
  rw [binaryExponent]
  split
  · exact (zpow_log2_sub_log2 hnum hden).2
  · next h =>
    rw [sub_add_cancel]
    exact not_le.1 fun hle => h ((shiftLeft_le_shiftLeft_iff hden _).2 hle)

/-! ## Equal fractions -/

theorem binaryExponent_eq_log (hnum : 0 < num) (hden : 0 < den) :
    binaryExponent num den = Int.log 2 ((num : ℚ) / den) :=
  eq_log_of_zpow_le (by decide) (by exact_mod_cast zpow_binaryExponent_le hnum hden)
    (by exact_mod_cast lt_zpow_binaryExponent_add_one hnum hden)

theorem roundToUnit_congr (hden : 0 < den) (hden' : 0 < den') (h : num * den' = num' * den)
    (unit : ℤ) : roundToUnit num den unit = roundToUnit num' den' unit := by
  refine roundQuotient_congr (shiftLeft_pos hden _) (shiftLeft_pos hden' _) ?_
  simp only [Nat.shiftLeft_eq]
  rw [mul_mul_mul_comm, h, mul_mul_mul_comm]

/-- The nearest number depends on the value of the fraction only. -/
theorem nearest_congr (negative : Bool) (hnum : 0 < num) (hnum' : 0 < num') (hden : 0 < den)
    (hden' : 0 < den') (h : (num : ℚ) / den = num' / den') :
    nearest negative num den = nearest negative num' den' := by
  have hcross : num * den' = num' * den := by
    rw [div_eq_div_iff (by positivity) (by positivity)] at h
    exact_mod_cast h
  have hunit : unitExponent num den = unitExponent num' den' := by
    rw [unitExponent, unitExponent, binaryExponent_eq_log hnum hden,
      binaryExponent_eq_log hnum' hden', h]
  simp only [nearest, hunit, roundToUnit_congr hden hden' hcross]

/-! ## Bounds -/

/-- Rounding to a unit does not pass a whole number of units. -/
theorem roundToUnit_le (hden : 0 < den) {n : ℕ} {unit : ℤ} (h : (num : ℚ) / den ≤ n * 2 ^ unit) :
    roundToUnit num den unit ≤ n :=
  roundQuotient_le (shiftLeft_pos hden _) ((le_mul_shiftLeft_iff hden n unit).2 h)

/-- The last bit of the nearest magnitude is such that at most 2⁵³ of its units are needed. -/
theorem roundToUnit_unitExponent_le (hnum : 0 < num) (hden : 0 < den) :
    roundToUnit num den (unitExponent num den) ≤ 2 ^ 53 := by
  refine roundToUnit_le hden ?_
  calc (num : ℚ) / den
      ≤ 2 ^ (binaryExponent num den + 1) := (lt_zpow_binaryExponent_add_one hnum hden).le
    _ ≤ 2 ^ (53 + unitExponent num den) := by
      refine zpow_le_zpow_right₀ (by norm_num) ?_
      have hunit : binaryExponent num den - 52 ≤ unitExponent num den := le_max_left ..
      omega
    _ = (2 ^ 53 : ℕ) * 2 ^ unitExponent num den := by
      rw [zpow_add₀ (by norm_num), Nat.cast_pow]
      norm_cast

/-- Far enough below the end of the range the nearest number is finite. -/
theorem isFinite_nearest (negative : Bool) (hnum : 0 < num) (hden : 0 < den)
    (h : (num : ℚ) / den < 2 ^ (1023 : ℤ)) : (nearest negative num den).IsFinite := by
  have hexponent : binaryExponent num den < 1023 :=
    (zpow_lt_zpow_iff_right₀ (by norm_num)).1 ((zpow_binaryExponent_le hnum hden).trans_lt h)
  have hunit : (unitExponent num den + 1074).toNat ≤ 2044 := by
    unfold unitExponent
    omega
  have hround := roundToUnit_unitExponent_le hnum hden
  refine Nat.lt_of_le_of_lt (Nat.min_le_right ..) ?_
  rw [Nat.shiftLeft_eq, infinity]
  omega

end Binary64

namespace Decimal

/-- Numbers of one value have one nearest binary64 number, unless they are zero. -/
theorem toBinary64_congr {first second : Decimal} (hne : first.toRat ≠ 0)
    (h : first.toRat = second.toRat) : first.toBinary64 = second.toBinary64 := by
  have hsign : first.negative = second.negative := by
    rw [Bool.eq_iff_iff, ← toRat_neg_iff hne, ← toRat_neg_iff (h ▸ hne), h]
  rw [toBinary64, toBinary64, hsign]
  refine Binary64.nearest_congr _ (fraction_num_pos hne) (fraction_num_pos (h ▸ hne))
    first.fraction_den_pos second.fraction_den_pos ?_
  rw [← abs_toRat_eq_div, ← abs_toRat_eq_div, h]

/-- A value of few digits that is no integer lies far below the end of the range. -/
theorem isFinite_toBinary64 {d : Decimal} (hdigits : d.HasDigits Scalar.digitLimit)
    (hintegral : ¬ d.IsIntegral) : d.toBinary64.IsFinite := by
  refine Binary64.isFinite_nearest _ (fraction_num_pos (toRat_ne_zero hintegral))
    d.fraction_den_pos ?_
  rw [← abs_toRat_eq_div]
  calc |d.toRat| < 10 ^ Scalar.digitLimit := abs_toRat_lt hdigits hintegral
    _ ≤ 2 ^ (50 : ℤ) := by norm_num [Scalar.digitLimit]
    _ ≤ 2 ^ (1023 : ℤ) := zpow_le_zpow_right₀ (by norm_num) (by norm_num)

end Decimal

end RequestPlan
