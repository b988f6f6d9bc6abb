import RequestPlan.Proofs.Binary64Rounding
import RequestPlan.Proofs.EqualNumbers

/-!
# Digits that a double keeps

Doubles lie closer together than numbers of fifteen digits do, down to the least numbers that are
read as doubles. So different numbers turn into different doubles, and none of them into zero.

* `Decimal.abs_toRat_le_mul_sub`: numbers of few digits are apart from each other;
* `Binary64.sub_le_of_nearest_eq`: fractions with one nearest magnitude are at most a unit apart;
* `FitsDouble.mul_doubleUnit_lt`: fifteen digits more than the number has tell units apart;
* `Scalar.double_eq_iff`: doubles are equal if and only if the literals are.
-/

namespace RequestPlan

/-- Of two natural numbers of which one at least is small, the greater one is not so many times
greater than their difference. -/
theorem le_mul_sub_of_lt {m n p : ℕ} (hlt : m < n) (h : m < p ∨ n ≤ p) : n ≤ p * (n - m) := by
  obtain ⟨k, rfl⟩ := Nat.exists_eq_add_of_lt hlt
  have hsub : m + k + 1 - m = k + 1 := by omega
  have hp : 0 < p := by omega
  have hk : k ≤ p * k := Nat.le_mul_of_pos_left k hp
  rw [hsub, Nat.mul_succ]
  rcases h with h | h <;> omega

namespace Binary64

variable {num den num' den' : ℕ} {negative negative' : Bool}

theorem unitExponent_mono (hnum : 0 < num) (hden : 0 < den) (hnum' : 0 < num') (hden' : 0 < den')
    (h : (num : ℚ) / den ≤ num' / den') : unitExponent num den ≤ unitExponent num' den' := by
  rw [unitExponent, unitExponent, binaryExponent_eq_log hnum hden,
    binaryExponent_eq_log hnum' hden']
  exact max_le_max_right _ (sub_le_sub_right (Int.log_mono_right (by positivity) h) _)

/-- Two fractions with one nearest magnitude are at most a unit of the greater one apart. -/
theorem sub_le_of_nearest_eq (hnum : 0 < num) (hden : 0 < den) (hnum' : 0 < num')
    (hden' : 0 < den') (hfinite : (nearest negative num den).IsFinite)
    (hfinite' : (nearest negative' num' den').IsFinite) (hle : (num : ℚ) / den ≤ num' / den')
    (h : magnitudeValue (nearest negative num den).magnitude =
      magnitudeValue (nearest negative' num' den').magnitude) :
    (num' : ℚ) / den' - num / den ≤ 2 ^ unitExponent num' den' := by
  have hhalf := abs_magnitudeValue_nearest_sub_le negative hnum hden hfinite
  have hhalf' := abs_magnitudeValue_nearest_sub_le negative' hnum' hden' hfinite'
  have hunit : (2 : ℚ) ^ unitExponent num den ≤ 2 ^ unitExponent num' den' :=
    zpow_le_zpow_right₀ (by norm_num) (unitExponent_mono hnum hden hnum' hden' hle)
  rw [h, abs_le] at hhalf
  rw [abs_le] at hhalf'
  linarith

end Binary64

namespace Decimal

variable {first second d : Decimal} {p : ℕ}

/-- Numbers of at most `p` digits lie apart by no less than one part in `10 ^ p`. -/
theorem abs_toRat_le_mul_sub (hfirst : first.HasDigits p) (hsecond : second.HasDigits p)
    (hlt : |first.toRat| < |second.toRat|) :
    |second.toRat| ≤ 10 ^ p * (|second.toRat| - |first.toRat|) := by
  obtain ⟨m, e, hm, hvalue⟩ := hfirst
  obtain ⟨n, f, hn, hvalue'⟩ := hsecond
  -- Both are natural multiples of the smaller one of the two powers of ten.
  obtain ⟨a, b, g, he, hf, hzero⟩ :
      ∃ (a b : ℕ) (g : ℤ), e = a + g ∧ f = b + g ∧ (a = 0 ∨ b = 0) := by
    rcases le_total e f with hle | hle
    · exact ⟨0, (f - e).toNat, e, by omega, by omega, .inl rfl⟩
    · exact ⟨(e - f).toNat, 0, f, by omega, by omega, .inr rfl⟩
  have hpos : (0 : ℚ) < 10 ^ g := by positivity
  have hfirst : |first.toRat| = (m * 10 ^ a : ℕ) * 10 ^ g := by
    rw [hvalue, he, ← cast_pow_mul_zpow, Nat.cast_mul, mul_assoc]
  have hsecond : |second.toRat| = (n * 10 ^ b : ℕ) * 10 ^ g := by
    rw [hvalue', hf, ← cast_pow_mul_zpow, Nat.cast_mul, mul_assoc]
  rw [hfirst, hsecond, mul_lt_mul_iff_left₀ hpos, Nat.cast_lt] at hlt
  have hsmall : m * 10 ^ a < 10 ^ p ∨ n * 10 ^ b ≤ 10 ^ p := by
    rcases hzero with rfl | rfl
    · exact .inl (by rwa [pow_zero, mul_one])
    · exact .inr (by rw [pow_zero, mul_one]; exact hn.le)
  have hle := le_mul_sub_of_lt hlt hsmall
  rw [hfirst, hsecond, ← sub_mul, ← mul_assoc, mul_le_mul_iff_left₀ hpos, ← Nat.cast_sub hlt.le]
  exact_mod_cast hle

/-! ## Numbers of fifteen digits -/

/-- The number has few enough digits for a double, is no integer, and its first digit stands no
further behind the point than that of the least numbers that are read. -/
structure FitsDouble (d : Decimal) : Prop where
  hasDigits : d.HasDigits Scalar.digitLimit
  not_isIntegral : ¬ d.IsIntegral
  near : -308 ≤ d.adjustedExponent

namespace FitsDouble

theorem toRat_ne_zero (h : d.FitsDouble) : d.toRat ≠ 0 :=
  Decimal.toRat_ne_zero h.not_isIntegral

theorem num_pos (h : d.FitsDouble) : 0 < d.fraction.1 :=
  fraction_num_pos h.toRat_ne_zero

theorem isFinite (h : d.FitsDouble) : d.toBinary64.IsFinite :=
  isFinite_toBinary64 h.hasDigits h.not_isIntegral

end FitsDouble

/-- The power of two that the last bit of the nearest double counts. -/
def doubleUnit (d : Decimal) : ℚ := 2 ^ Binary64.unitExponent d.fraction.1 d.fraction.2

theorem doubleUnit_pos (d : Decimal) : 0 < d.doubleUnit := by
  unfold doubleUnit
  positivity

theorem mul_least_unit_lt :
    (10 : ℚ) ^ Scalar.digitLimit * 2 ^ (-1074 : ℤ) < 10 ^ (-308 : ℤ) := by
  have hnat : 10 ^ Scalar.digitLimit * 10 ^ 308 < 2 ^ 1074 := by decide +kernel
  have hcast : (10 : ℚ) ^ Scalar.digitLimit * 10 ^ (308 : ℤ) < 2 ^ (1074 : ℤ) := by
    exact_mod_cast hnat
  rw [zpow_neg, zpow_neg, ← div_eq_mul_inv, div_lt_iff₀ (by positivity), ← div_eq_inv_mul,
    lt_div_iff₀ (by positivity)]
  exact hcast

/-- Fifteen digits count for less than the 53 bits of a double, and the least units are still small
enough for the least numbers that are read. -/
theorem FitsDouble.mul_doubleUnit_lt (h : d.FitsDouble) :
    10 ^ Scalar.digitLimit * d.doubleUnit < |d.toRat| := by
  rcases (Binary64.le_unitExponent d.fraction.1 d.fraction.2).eq_or_lt with heq | hlt
  · calc 10 ^ Scalar.digitLimit * d.doubleUnit
        < 10 ^ (-308 : ℤ) := by
          rw [doubleUnit, ← heq]
          exact mul_least_unit_lt
      _ ≤ 10 ^ d.adjustedExponent := zpow_le_zpow_right₀ (by norm_num) h.near
      _ ≤ |d.toRat| := zpow_adjustedExponent_le h.toRat_ne_zero
  · calc 10 ^ Scalar.digitLimit * d.doubleUnit
        < (2 ^ 52 : ℕ) * d.doubleUnit :=
          mul_lt_mul_of_pos_right (by norm_num [Scalar.digitLimit]) d.doubleUnit_pos
      _ ≤ |d.toRat| := by
          rw [abs_toRat_eq_div]
          exact Binary64.units_le_of_lt_unitExponent h.num_pos d.fraction_den_pos hlt

/-- The nearest double lies within half a unit. -/
theorem FitsDouble.abs_sub_le (h : d.FitsDouble) :
    |Binary64.magnitudeValue d.toBinary64.magnitude - (|d.toRat|)| ≤ d.doubleUnit / 2 := by
  rw [abs_toRat_eq_div]
  exact Binary64.abs_magnitudeValue_nearest_sub_le d.negative h.num_pos d.fraction_den_pos
    h.isFinite

theorem FitsDouble.toRat_toBinary64_ne_zero (h : d.FitsDouble) : d.toBinary64.toRat ≠ 0 := by
  intro hzero
  have hhalf := h.abs_sub_le
  rw [← Binary64.abs_toRat, hzero, abs_zero, zero_sub, abs_neg, abs_abs] at hhalf
  have hlt := h.mul_doubleUnit_lt
  have hpos := d.doubleUnit_pos
  norm_num [Scalar.digitLimit] at hlt
  linarith

/-- Numbers of different magnitudes have doubles of different magnitudes: they are further apart
than a unit of either. -/
theorem FitsDouble.abs_toRat_toBinary64_ne (hfirst : first.FitsDouble) (hsecond : second.FitsDouble)
    (hlt : |first.toRat| < |second.toRat|) :
    |first.toBinary64.toRat| ≠ |second.toBinary64.toRat| := by
  intro heq
  rw [Binary64.abs_toRat, Binary64.abs_toRat] at heq
  have hle := hlt.le
  rw [abs_toRat_eq_div, abs_toRat_eq_div] at hle
  have hunit : |second.toRat| - |first.toRat| ≤ second.doubleUnit := by
    rw [abs_toRat_eq_div, abs_toRat_eq_div]
    exact Binary64.sub_le_of_nearest_eq hfirst.num_pos first.fraction_den_pos hsecond.num_pos
      second.fraction_den_pos hfirst.isFinite hsecond.isFinite hle heq
  refine lt_irrefl |second.toRat| ?_
  calc |second.toRat|
      ≤ 10 ^ Scalar.digitLimit * (|second.toRat| - |first.toRat|) :=
        abs_toRat_le_mul_sub hfirst.hasDigits hsecond.hasDigits hlt
    _ ≤ 10 ^ Scalar.digitLimit * second.doubleUnit :=
        mul_le_mul_of_nonneg_left hunit (by positivity)
    _ < |second.toRat| := hsecond.mul_doubleUnit_lt

/-- Numbers with equal doubles are equal. -/
theorem FitsDouble.toRat_eq_of_toBinary64 (hfirst : first.FitsDouble) (hsecond : second.FitsDouble)
    (h : first.toBinary64.toRat = second.toBinary64.toRat) : first.toRat = second.toRat := by
  have hsign : first.negative = second.negative := by
    have hfirstSign := Binary64.toRat_neg_iff hfirst.toRat_toBinary64_ne_zero
    rw [h, Binary64.toRat_neg_iff hsecond.toRat_toBinary64_ne_zero] at hfirstSign
    exact (Bool.eq_iff_iff.2 hfirstSign).symm
  refine toRat_eq_of_abs_eq hsign ?_
  rcases lt_trichotomy |first.toRat| |second.toRat| with hlt | heq | hlt
  · exact absurd (congrArg abs h) (hfirst.abs_toRat_toBinary64_ne hsecond hlt)
  · exact heq
  · exact absurd (congrArg abs h.symm) (hsecond.abs_toRat_toBinary64_ne hfirst hlt)

end Decimal

namespace Scalar

open Decimal (Literal)

variable {text other : String} {literal alternative : Literal} {x y : Binary64}

/-- A literal of few digits that turns into a double turns into the nearest one. -/
theorem fitsDouble_of_ofRaw (htext : literal.toList = text.toList)
    (hdigits : literal.HasDigits digitLimit) (hx : ofRaw (.text text) = .ok (double x)) :
    literal.number.FitsDouble ∧ x = literal.number.toBinary64 := by
  rw [ofRaw_of_toList_eq htext, ofNumber_eq_double_iff] at hx
  obtain ⟨hintegral, -, hnear, -, rfl⟩ := hx
  refine ⟨⟨Literal.hasDigits_number.2 hdigits, hintegral, ?_⟩, rfl⟩
  unfold exponentLimit at hnear
  omega

/-- **Fifteen digits are enough**: of literals that need no more of them and turn into doubles, two
doubles are equal if and only if the values of the literals are, and each double is the one nearest
to the value of its literal and not zero. -/
theorem double_eq_iff (htext : literal.toList = text.toList)
    (hother : alternative.toList = other.toList) (hdigits : literal.HasDigits 15)
    (hdigits' : alternative.HasDigits 15) (hx : ofRaw (.text text) = .ok (double x))
    (hy : ofRaw (.text other) = .ok (double y)) :
    (x = y ↔ literal.value = alternative.value) ∧
      (x.toRat = y.toRat ↔ literal.value = alternative.value) ∧
      x.RoundsTo literal.value ∧ y.RoundsTo alternative.value ∧ x.toRat ≠ 0 ∧ y.toRat ≠ 0 := by
  obtain ⟨hfits, rfl⟩ := fitsDouble_of_ofRaw htext hdigits hx
  obtain ⟨hfits', rfl⟩ := fitsDouble_of_ofRaw hother hdigits' hy
  rw [← literal.toRat_number, ← alternative.toRat_number]
  have heq := hfits.toRat_eq_of_toBinary64 hfits'
  have hdouble (h : literal.number.toRat = alternative.number.toRat) :
      literal.number.toBinary64 = alternative.number.toBinary64 :=
    Decimal.toBinary64_congr hfits.toRat_ne_zero h
  exact ⟨⟨fun h => heq (congrArg _ h), hdouble⟩, ⟨heq, fun h => congrArg _ (hdouble h)⟩,
    Decimal.roundsTo_toBinary64 hfits.toRat_ne_zero hfits.isFinite,
    Decimal.roundsTo_toBinary64 hfits'.toRat_ne_zero hfits'.isFinite,
    hfits.toRat_toBinary64_ne_zero, hfits'.toRat_toBinary64_ne_zero⟩

/-- Two numbers of fifteen digits that are next to each other, nearly as near to zero as can be. -/
theorem double_eq_iff_least :
    ∃ (literal alternative : Literal) (x y : Binary64),
      literal.toList = "1.00000000000001e-308".toList ∧
      alternative.toList = "1.00000000000002e-308".toList ∧
      literal.HasDigits 15 ∧ alternative.HasDigits 15 ∧
      ofRaw (.text "1.00000000000001e-308") = .ok (double x) ∧
      ofRaw (.text "1.00000000000002e-308") = .ok (double y) ∧
      (x = y ↔ literal.value = alternative.value) ∧
      (x.toRat = y.toRat ↔ literal.value = alternative.value) ∧
      x.RoundsTo literal.value ∧ y.RoundsTo alternative.value ∧ x.toRat ≠ 0 ∧ y.toRat ≠ 0 := by
  obtain ⟨literal, htext, hnumber⟩ := Decimal.ofText?_eq_some_iff.1
    (show Decimal.ofText? "1.00000000000001e-308".toList = some ⟨false, 100000000000001, -322⟩ by
      decide +kernel)
  obtain ⟨alternative, hother, hnumber'⟩ := Decimal.ofText?_eq_some_iff.1
    (show Decimal.ofText? "1.00000000000002e-308".toList = some ⟨false, 100000000000002, -322⟩ by
      decide +kernel)
  have hdigits : literal.HasDigits 15 := by
    rw [← Literal.hasDigits_number, hnumber]
    exact (Decimal.hasDigits_iff (by decide)).2 (by decide +kernel)
  have hdigits' : alternative.HasDigits 15 := by
    rw [← Literal.hasDigits_number, hnumber']
    exact (Decimal.hasDigits_iff (by decide)).2 (by decide +kernel)
  have hx : ofRaw (.text "1.00000000000001e-308") =
      .ok (double (Decimal.toBinary64 ⟨false, 100000000000001, -322⟩)) := by decide +kernel
  have hy : ofRaw (.text "1.00000000000002e-308") =
      .ok (double (Decimal.toBinary64 ⟨false, 100000000000002, -322⟩)) := by decide +kernel
  exact ⟨literal, alternative, _, _, htext, hother, hdigits, hdigits', hx, hy,
    double_eq_iff htext hother hdigits hdigits' hx hy⟩

end Scalar

end RequestPlan
