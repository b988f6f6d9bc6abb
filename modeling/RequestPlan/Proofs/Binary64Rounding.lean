import Mathlib.Tactic.Ring
import RequestPlan.Proofs.NearestBinary64

/-!
# Correct rounding to binary64

The exact values of binary64 numbers, and the number nearest to a fraction among them. A magnitude
counts a unit, a power of two; below 2⁵³ units of the least power every multiple of it is a
magnitude, and above that the unit doubles each time that 2⁵³ of it are reached.

* `roundQuotient_nearest`: no natural number is nearer to a quotient than the rounded quotient;
* `magnitudeValue`, `toRat`: the exact values;
* `magnitudeValue_grid`: a magnitude is a multiple of any unit, unless it lies below 2⁵² of it;
* `magnitudeValue_nearest`, `abs_magnitudeValue_nearest_sub_le`: the nearest magnitude counts the
  rounded number of units, so that it lies within half a unit of the fraction;
* `RoundsTo`: the finite number nearest to a value, a half going to the even neighbour;
* `roundsTo_nearest`: `nearest` finds it, unless it is infinite.
-/

namespace RequestPlan

variable {num den : ℕ}

/-! ## Natural numbers near a quotient -/

theorem roundQuotient_sub_eq (hden : 0 < den) :
    (roundQuotient num den : ℚ) - num / den = (roundQuotient num den * den - num) / den := by
  have hne : (den : ℚ) ≠ 0 := Nat.cast_ne_zero.2 hden.ne'
  rw [sub_div, mul_div_cancel_right₀ _ hne]

theorem abs_roundQuotient_sub_le (hden : 0 < den) :
    |(roundQuotient num den : ℚ) - num / den| ≤ 1 / 2 := by
  have hpos : (0 : ℚ) < den := by exact_mod_cast hden
  have hhigh : (2 * (roundQuotient num den * den) : ℚ) ≤ 2 * num + den := by
    exact_mod_cast two_mul_roundQuotient_mul_le
  have hlow : (2 * num : ℚ) ≤ 2 * (roundQuotient num den * den) + den := by
    exact_mod_cast two_mul_le_roundQuotient_mul hden
  rw [roundQuotient_sub_eq hden, abs_div, abs_of_pos hpos, div_le_iff₀ hpos, abs_le]
  constructor <;> linarith

theorem roundQuotient_mod_two_of_abs_sub_eq (hden : 0 < den)
    (h : |(roundQuotient num den : ℚ) - num / den| = 1 / 2) : roundQuotient num den % 2 = 0 := by
  have hpos : (0 : ℚ) < den := by exact_mod_cast hden
  rw [roundQuotient_sub_eq hden, abs_div, abs_of_pos hpos, div_eq_iff hpos.ne'] at h
  refine roundQuotient_mod_two hden ?_
  rcases (abs_eq (by positivity)).1 h with h | h
  · have hup : (2 * (roundQuotient num den * den) : ℚ) = 2 * num + den := by linarith
    exact .inr (by exact_mod_cast hup)
  · have hdown : (2 * num : ℚ) = 2 * (roundQuotient num den * den) + den := by linarith
    exact .inl (by exact_mod_cast hdown)

/-- A value has no two natural numbers that are nearer to it than half a unit. -/
theorem one_le_add_of_ne {m n : ℕ} (hne : m ≠ n) (x : ℚ) :
    1 ≤ |(m : ℚ) - x| + |(n : ℚ) - x| := by
  have hstep : (1 : ℤ) ≤ |(m : ℤ) - n| := Int.one_le_abs (by omega)
  calc (1 : ℚ) ≤ |(m : ℚ) - n| := by exact_mod_cast hstep
    _ = |(m - x) - (n - x)| := by rw [sub_sub_sub_cancel_right]
    _ ≤ |(m : ℚ) - x| + |(n : ℚ) - x| := abs_sub _ _

/-- No natural number is nearer to the quotient than the rounded quotient, and one that is equally
near leaves it even. -/
theorem roundQuotient_nearest (hden : 0 < den) (n : ℕ) :
    |(roundQuotient num den : ℚ) - num / den| ≤ |(n : ℚ) - num / den| ∧
      (n ≠ roundQuotient num den →
        |(n : ℚ) - num / den| = |(roundQuotient num den : ℚ) - num / den| →
          roundQuotient num den % 2 = 0) := by
  have hhalf : |(roundQuotient num den : ℚ) - num / den| ≤ 1 / 2 := abs_roundQuotient_sub_le hden
  by_cases heq : n = roundQuotient num den
  · rw [heq]
    exact ⟨le_rfl, fun hne => absurd rfl hne⟩
  · have hsum := one_le_add_of_ne heq (num / den)
    exact ⟨by linarith, fun _ htie => roundQuotient_mod_two_of_abs_sub_eq hden (by linarith)⟩

namespace Binary64

/-! ## Values -/

/-- The unit that the last bit of a magnitude counts, as a power of two above the least unit. -/
def unitIndex (magnitude : ℕ) : ℕ := magnitude / 2 ^ 52 - 1

/-- How many of its units a magnitude counts. -/
def significand (magnitude : ℕ) : ℕ := magnitude - unitIndex magnitude * 2 ^ 52

/-- The exact value of a magnitude. Infinity has that of the power of two behind the greatest finite
number. -/
def magnitudeValue (magnitude : ℕ) : ℚ :=
  significand magnitude * 2 ^ ((unitIndex magnitude : ℤ) - 1074)

/-- The exact value of a number. -/
def toRat (x : Binary64) : ℚ := (if x.negative then -1 else 1) * magnitudeValue x.magnitude

variable {x y : Binary64} {q : ℚ} {unit : ℤ}

theorem magnitudeValue_nonneg (m : ℕ) : 0 ≤ magnitudeValue m := by
  unfold magnitudeValue
  positivity

theorem abs_toRat (x : Binary64) : |x.toRat| = magnitudeValue x.magnitude := by
  unfold toRat
  split <;> simp [abs_of_nonneg (magnitudeValue_nonneg _)]

theorem zpow_units (k : ℕ) (unit : ℤ) : ((2 ^ k : ℕ) : ℚ) * 2 ^ unit = 2 ^ (k + unit) := by
  rw [Nat.cast_pow, Nat.cast_ofNat, zpow_add₀ (by norm_num), zpow_natCast]

/-- The magnitude that counts so many units. The next one after 2⁵³ - 1 of them is the first one of
the next unit. -/
theorem magnitudeValue_add {k r : ℕ} (hr : r ≤ 2 ^ 53) (hk : k = 0 ∨ 2 ^ 52 ≤ r) :
    magnitudeValue (k * 2 ^ 52 + r) = r * 2 ^ ((k : ℤ) - 1074) := by
  rcases hr.lt_or_eq with hlt | rfl
  · have hunit : unitIndex (k * 2 ^ 52 + r) = k := by
      unfold unitIndex
      omega
    rw [magnitudeValue, significand, hunit, Nat.add_sub_cancel_left]
  · have hunit : unitIndex (k * 2 ^ 52 + 2 ^ 53) = k + 1 := by
      unfold unitIndex
      omega
    have hcount : k * 2 ^ 52 + 2 ^ 53 - (k + 1) * 2 ^ 52 = 2 ^ 52 := by omega
    rw [magnitudeValue, significand, hunit, hcount, zpow_units, zpow_units]
    congr 1
    push_cast
    ring

theorem significand_lt (m : ℕ) : significand m < 2 ^ 53 := by
  unfold significand unitIndex
  omega

/-- A magnitude is a multiple of any unit, unless it lies below 2⁵² of it. -/
theorem magnitudeValue_grid (m : ℕ) (hunit : -1074 ≤ unit) :
    (∃ n : ℕ, magnitudeValue m = n * 2 ^ unit) ∨
      -1074 < unit ∧ magnitudeValue m < (2 ^ 52 : ℕ) * 2 ^ unit := by
  rcases le_or_gt unit ((unitIndex m : ℤ) - 1074) with hle | hlt
  · obtain ⟨k, hk⟩ := Int.le.dest hle
    refine .inl ⟨significand m * 2 ^ k, ?_⟩
    rw [magnitudeValue, Nat.cast_mul, mul_assoc, zpow_units, ← hk, add_comm]
  · refine .inr ⟨by omega, ?_⟩
    calc magnitudeValue m
        < (2 ^ 53 : ℕ) * 2 ^ ((unitIndex m : ℤ) - 1074) :=
          mul_lt_mul_of_pos_right (Nat.cast_lt.2 (significand_lt m)) (by positivity)
      _ = 2 ^ ((53 : ℕ) + ((unitIndex m : ℤ) - 1074)) := zpow_units ..
      _ ≤ 2 ^ ((52 : ℕ) + unit) := zpow_le_zpow_right₀ (by norm_num) (by push_cast; omega)
      _ = (2 ^ 52 : ℕ) * 2 ^ unit := (zpow_units ..).symm

/-! ## Rounding to a unit -/

/-- A number of units is as far from a fraction as it is, in units, from the shifted quotient. -/
theorem abs_mul_zpow_sub (n : ℕ) (unit : ℤ) :
    |(n : ℚ) * 2 ^ unit - num / den| =
      |(n : ℚ) - (num <<< (-unit).toNat : ℕ) / (den <<< unit.toNat : ℕ)| * 2 ^ unit := by
  have hpos : (0 : ℚ) < 2 ^ unit := by positivity
  rw [shiftLeft_div_shiftLeft, ← abs_of_pos hpos, ← abs_mul, abs_of_pos hpos, sub_mul,
    div_mul_cancel₀ _ hpos.ne']

theorem abs_roundToUnit_sub_le (hden : 0 < den) (unit : ℤ) :
    |(roundToUnit num den unit : ℚ) * 2 ^ unit - num / den| ≤ 2 ^ unit / 2 := by
  rw [abs_mul_zpow_sub]
  calc _ ≤ 1 / 2 * (2 : ℚ) ^ unit := mul_le_mul_of_nonneg_right
        (abs_roundQuotient_sub_le (shiftLeft_pos hden unit.toNat)) (by positivity)
    _ = 2 ^ unit / 2 := by ring

/-- No number of units is nearer than the rounded one. -/
theorem roundToUnit_nearest (hden : 0 < den) (n : ℕ) (unit : ℤ) :
    |(roundToUnit num den unit : ℚ) * 2 ^ unit - num / den| ≤ |(n : ℚ) * 2 ^ unit - num / den| ∧
      (n ≠ roundToUnit num den unit →
        |(n : ℚ) * 2 ^ unit - num / den| =
          |(roundToUnit num den unit : ℚ) * 2 ^ unit - num / den| →
        roundToUnit num den unit % 2 = 0) := by
  have hpos : (0 : ℚ) < 2 ^ unit := by positivity
  rw [abs_mul_zpow_sub, abs_mul_zpow_sub]
  obtain ⟨hle, heven⟩ := roundQuotient_nearest (shiftLeft_pos hden unit.toNat) n
  exact ⟨mul_le_mul_of_nonneg_right hle hpos.le,
    fun hne htie => heven hne (mul_right_cancel₀ hpos.ne' htie)⟩

theorem le_roundToUnit (hden : 0 < den) {n : ℕ} (h : (n : ℚ) * 2 ^ unit ≤ num / den) :
    n ≤ roundToUnit num den unit := by
  refine le_roundQuotient (shiftLeft_pos hden _) ?_
  have hpos : (0 : ℚ) < (den <<< unit.toNat : ℕ) := by exact_mod_cast shiftLeft_pos hden _
  rw [← le_div_iff₀ (by positivity), ← shiftLeft_div_shiftLeft, le_div_iff₀ hpos] at h
  exact_mod_cast h

/-! ## The nearest magnitude -/

variable (negative : Bool)

theorem le_unitExponent (num den : ℕ) : -1074 ≤ unitExponent num den :=
  le_max_right ..

/-- The fraction has at least 2⁵² units, unless they are the least ones. -/
theorem units_le_of_lt_unitExponent (hnum : 0 < num) (hden : 0 < den)
    (hunit : -1074 < unitExponent num den) :
    (2 ^ 52 : ℕ) * 2 ^ unitExponent num den ≤ (num : ℚ) / den := by
  have hexponent : (52 : ℕ) + unitExponent num den = binaryExponent num den := by
    unfold unitExponent at hunit ⊢
    push_cast
    omega
  rw [zpow_units, hexponent]
  exact zpow_binaryExponent_le hnum hden

theorem magnitude_nearest (hfinite : (nearest negative num den).IsFinite) :
    (nearest negative num den).magnitude =
      (unitExponent num den + 1074).toNat * 2 ^ 52 +
        roundToUnit num den (unitExponent num den) := by
  rw [← Nat.shiftLeft_eq]
  exact min_eq_right ((min_lt_iff.1 hfinite).resolve_left (lt_irrefl _)).le

/-- The nearest magnitude counts the rounded number of units. -/
theorem magnitudeValue_nearest (hnum : 0 < num) (hden : 0 < den)
    (hfinite : (nearest negative num den).IsFinite) :
    magnitudeValue (nearest negative num den).magnitude =
      roundToUnit num den (unitExponent num den) * 2 ^ unitExponent num den := by
  have hle := le_unitExponent num den
  have hcount : (unitExponent num den + 1074).toNat = 0 ∨
      2 ^ 52 ≤ roundToUnit num den (unitExponent num den) := by
    rcases hle.eq_or_lt with heq | hlt
    · exact .inl (by omega)
    · exact .inr (le_roundToUnit hden (units_le_of_lt_unitExponent hnum hden hlt))
  have hunit : ((unitExponent num den + 1074).toNat : ℤ) - 1074 = unitExponent num den := by omega
  rw [magnitude_nearest negative hfinite,
    magnitudeValue_add (roundToUnit_unitExponent_le hnum hden) hcount, hunit]

/-- The nearest magnitude lies within half a unit of the fraction. -/
theorem abs_magnitudeValue_nearest_sub_le (hnum : 0 < num) (hden : 0 < den)
    (hfinite : (nearest negative num den).IsFinite) :
    |magnitudeValue (nearest negative num den).magnitude - num / den| ≤
      2 ^ unitExponent num den / 2 := by
  rw [magnitudeValue_nearest negative hnum hden hfinite]
  exact abs_roundToUnit_sub_le hden _

/-- No magnitude is nearer to a fraction than the nearest one, and one that is equally near leaves
its last bit zero. -/
theorem magnitudeValue_nearest_le (hnum : 0 < num) (hden : 0 < den)
    (hfinite : (nearest negative num den).IsFinite) (m : ℕ) :
    |magnitudeValue (nearest negative num den).magnitude - num / den| ≤
        |magnitudeValue m - num / den| ∧
      (magnitudeValue m ≠ magnitudeValue (nearest negative num den).magnitude →
        |magnitudeValue m - num / den| =
          |magnitudeValue (nearest negative num den).magnitude - num / den| →
        (nearest negative num den).magnitude % 2 = 0) := by
  rw [magnitudeValue_nearest negative hnum hden hfinite, magnitude_nearest negative hfinite]
  rcases magnitudeValue_grid m (le_unitExponent num den) with ⟨n, hn⟩ | ⟨hunit, hlt⟩
  · rw [hn]
    obtain ⟨hle, heven⟩ := roundToUnit_nearest hden n (unitExponent num den)
    refine ⟨hle, fun hne htie => ?_⟩
    have := heven (fun heq => hne (heq ▸ rfl)) htie
    omega
  · -- Below 2⁵² units the fraction is nearer to them than to the magnitude.
    have hunits := units_le_of_lt_unitExponent hnum hden hunit
    rw [abs_of_nonpos (sub_nonpos.2 (hlt.le.trans hunits))]
    have hcloser := (roundToUnit_nearest hden (2 ^ 52) (unitExponent num den)).1.trans_lt
      ((abs_of_nonpos (sub_nonpos.2 hunits)).trans_lt (neg_lt_neg (sub_lt_sub_right hlt _)))
    exact ⟨hcloser.le, fun _ htie => absurd htie hcloser.ne'⟩

/-! ## The nearest number -/

/-- The number is the finite one nearest to the value, with the sign of the value; if another one is
equally near, then its last bit is zero. -/
structure RoundsTo (q : ℚ) (x : Binary64) : Prop where
  isFinite : x.IsFinite
  negative_eq : x.negative = decide (q < 0)
  nearest : ∀ y : Binary64, y.IsFinite → |x.toRat - q| ≤ |y.toRat - q|
  even : ∀ y : Binary64, y.IsFinite → y.toRat ≠ x.toRat → |y.toRat - q| = |x.toRat - q| →
    x.magnitude % 2 = 0

/-- A number and a value of one sign. -/
theorem exists_sign (hsign : x.negative = decide (q < 0)) :
    ∃ sign : ℚ, |sign| = 1 ∧ x.toRat = sign * magnitudeValue x.magnitude ∧ q = sign * |q| := by
  by_cases hq : q < 0
  · exact ⟨-1, by norm_num, by simp [toRat, hsign, hq], by simp [abs_of_neg hq]⟩
  · exact ⟨1, by norm_num, by simp [toRat, hsign, hq], by simp [abs_of_nonneg (not_lt.1 hq)]⟩

theorem abs_toRat_sub (hsign : x.negative = decide (q < 0)) :
    |x.toRat - q| = |(magnitudeValue x.magnitude - |q|)| := by
  obtain ⟨sign, habs, hx, hq⟩ := exists_sign hsign
  rw [hx]
  conv_lhs => rw [hq]
  rw [← mul_sub, abs_mul, habs, one_mul]

/-- Of the numbers of one magnitude, the one with the other sign is farther away. -/
theorem abs_neg_toRat_sub (hsign : x.negative = decide (q < 0)) :
    |-x.toRat - q| = magnitudeValue x.magnitude + |q| := by
  obtain ⟨sign, habs, hx, hq⟩ := exists_sign hsign
  have hsum : 0 ≤ magnitudeValue x.magnitude + |q| :=
    add_nonneg (magnitudeValue_nonneg _) (abs_nonneg q)
  rw [hx]
  conv_lhs => rw [hq]
  rw [← neg_add', ← mul_add, abs_neg, abs_mul, habs, one_mul, abs_of_nonneg hsum]

theorem magnitudeValue_zero : magnitudeValue 0 = 0 := by
  simp [magnitudeValue, significand]

/-- It is enough to compare magnitudes. -/
theorem roundsTo_of_magnitudeValue (hfinite : x.IsFinite) (hsign : x.negative = decide (q < 0))
    (h : ∀ m, |(magnitudeValue x.magnitude - |q|)| ≤ |(magnitudeValue m - |q|)| ∧
      (magnitudeValue m ≠ magnitudeValue x.magnitude →
        |(magnitudeValue m - |q|)| = |(magnitudeValue x.magnitude - |q|)| → x.magnitude % 2 = 0)) :
    RoundsTo q x := by
  have hfar (y : Binary64) : |(magnitudeValue y.magnitude - |q|)| ≤ |y.toRat - q| := by
    rw [← abs_toRat]
    exact abs_abs_sub_abs_le _ _
  refine ⟨hfinite, hsign, fun y _ => ?_, fun y _ hne htie => ?_⟩
  · rw [abs_toRat_sub hsign]
    exact (h y.magnitude).1.trans (hfar y)
  · by_cases hmagnitude : magnitudeValue y.magnitude = magnitudeValue x.magnitude
    · -- Only zero is as near with either sign, but then there is no second value.
      have hneg : y.toRat = -x.toRat := by
        rw [← abs_toRat, ← abs_toRat] at hmagnitude
        exact (abs_eq_abs.1 hmagnitude).resolve_left hne
      have hzero := (h 0).1
      rw [magnitudeValue_zero, zero_sub, abs_neg, abs_abs, ← abs_toRat_sub hsign, ← htie, hneg,
        abs_neg_toRat_sub hsign] at hzero
      have hx : x.toRat = 0 := by
        rw [← abs_eq_zero, abs_toRat]
        linarith [magnitudeValue_nonneg x.magnitude]
      rw [hneg, hx, neg_zero] at hne
      exact absurd rfl hne
    · refine (h y.magnitude).2 hmagnitude (le_antisymm ?_ (h y.magnitude).1)
      rw [← abs_toRat_sub hsign, ← htie]
      exact hfar y

/-- **The number that is found is the nearest one**, if it is finite. -/
theorem roundsTo_nearest (hnum : 0 < num) (hden : 0 < den)
    (hfinite : (nearest negative num den).IsFinite) :
    RoundsTo ((if negative then -1 else 1) * (num / den)) (nearest negative num den) := by
  have hpos : (0 : ℚ) < num / den := by positivity
  have habs : |(if negative then -1 else 1) * ((num : ℚ) / den)| = num / den := by
    split <;> simp [abs_of_pos hpos]
  have hsign : negative = decide ((if negative then -1 else 1) * ((num : ℚ) / den) < 0) := by
    cases negative <;> simp [hpos, hpos.le]
  refine roundsTo_of_magnitudeValue hfinite hsign fun m => ?_
  rw [habs]
  exact magnitudeValue_nearest_le negative hnum hden hfinite m

/-- A tenth, and a number below the normal ones. -/
example : (nearest false 1 10).toBits = 0x3FB999999999999A ∧
    (nearest true 1 (4 * Nat.pow 10 308)).toBits = 0x8001CC359E067A35 := by
  decide +kernel

theorem toRat_neg_iff (hne : x.toRat ≠ 0) : x.toRat < 0 ↔ x.negative = true := by
  have hpos : 0 < magnitudeValue x.magnitude := abs_toRat x ▸ abs_pos.2 hne
  unfold toRat
  cases x.negative <;> simp [hpos, hpos.le]

end Binary64

/-- A finite nearest double is the correctly rounded one. -/
theorem Decimal.roundsTo_toBinary64 {d : Decimal} (hne : d.toRat ≠ 0)
    (hfinite : d.toBinary64.IsFinite) : d.toBinary64.RoundsTo d.toRat := by
  rw [toRat_eq]
  exact Binary64.roundsTo_nearest d.negative (fraction_num_pos hne) d.fraction_den_pos hfinite

end RequestPlan
