import Mathlib.Algebra.Order.Field.Power
import Mathlib.Data.Int.Log
import Mathlib.Data.Nat.Cast.Field
import Mathlib.Data.Rat.Cast.Order
import Mathlib.Data.Rat.Floor
import Mathlib.Tactic.Positivity
import RequestPlan.Decimal.Basic

/-!
# The exact values of decimal numbers

What the forms of a number say about the number. A number has so many significant digits if it is a
natural number below that power of ten times a power of ten, whatever form it is given in.

* `toRat`: the exact value;
* `toInt?_eq_some_iff`, `toInt?_eq_none_iff`: an integral value is found, and no other;
* `HasDigits`: the digits that a value needs, trailing zeros not counted;
* `hasDigits_iff`: they are those left of the coefficient without its trailing zeros;
* `rounded`, `significantDigits_le_iff`: the digits are counted after rounding;
* `toRat_rounded`: rounding keeps a value that the working precision can hold.
-/

namespace RequestPlan

/-- The logarithm of a fraction is the power below it if the next one is above it. -/
theorem eq_log_of_zpow_le {b : ℕ} (hb : 1 < b) {q : ℚ} {e : ℤ} (hlow : (b : ℚ) ^ e ≤ q)
    (hhigh : q < (b : ℚ) ^ (e + 1)) : e = Int.log b q := by
  have hpos : 0 < q := (zpow_pos (by exact_mod_cast hb.le) e).trans_le hlow
  have hle := (Int.zpow_le_iff_le_log hb hpos).1 hlow
  have hlt := (Int.lt_zpow_iff_log_lt hb hpos).1 hhigh
  omega

namespace Decimal

/-! ## Values -/

/-- The exact value. -/
def toRat (d : Decimal) : ℚ :=
  (if d.negative then -1 else 1) * (d.coefficient * 10 ^ d.exponent)

/-- The value is an integer. -/
def IsIntegral (d : Decimal) : Prop := ∃ n : ℤ, d.toRat = n

variable {d : Decimal} {n p : ℕ}

theorem abs_toRat (d : Decimal) : |d.toRat| = d.coefficient * 10 ^ d.exponent := by
  have hmagnitude : (0 : ℚ) ≤ d.coefficient * 10 ^ d.exponent := by positivity
  unfold toRat
  split <;> simp [abs_of_nonneg hmagnitude]

/-- Two numbers of one sign are equal if their magnitudes are. -/
theorem toRat_eq_of_abs_eq {first second : Decimal} (hsign : first.negative = second.negative)
    (habs : |first.toRat| = |second.toRat|) : first.toRat = second.toRat := by
  rw [abs_toRat, abs_toRat] at habs
  rw [toRat, toRat, hsign, habs]

/-- The fraction is the magnitude. -/
theorem abs_toRat_eq_div (d : Decimal) : |d.toRat| = d.fraction.1 / d.fraction.2 := by
  rw [abs_toRat, fraction]
  obtain ⟨k, hk | hk⟩ := d.exponent.eq_nat_or_neg
  · simp [hk]
  · simp [hk, div_eq_mul_inv]

theorem toRat_eq (d : Decimal) :
    d.toRat = (if d.negative then -1 else 1) * (d.fraction.1 / d.fraction.2) := by
  rw [← abs_toRat_eq_div, abs_toRat, toRat]

theorem toInt?_eq (d : Decimal) :
    d.toInt? =
      if d.fraction.1 % d.fraction.2 = 0 then
        some ((if d.negative then -1 else 1) * ((d.fraction.1 / d.fraction.2 : ℕ) : ℤ))
      else none := by
  unfold toInt?
  cases d.negative <;> simp

theorem toInt?_eq_some_iff {n : ℤ} : d.toInt? = some n ↔ d.toRat = n := by
  have hden : (d.fraction.2 : ℚ) ≠ 0 := Nat.cast_ne_zero.2 d.fraction_den_pos.ne'
  rw [toInt?_eq]
  split
  · next h =>
    have hdiv : ((d.fraction.1 / d.fraction.2 : ℕ) : ℚ) = d.fraction.1 / d.fraction.2 :=
      Nat.cast_div (Nat.dvd_of_mod_eq_zero h) hden
    rw [Option.some_inj, toRat_eq, ← hdiv, ← @Int.cast_inj ℚ, Int.cast_mul, Int.cast_natCast,
      Int.cast_ite, Int.cast_neg, Int.cast_one]
  · next h =>
    refine iff_of_false nofun fun hn => ?_
    have habs : (d.fraction.1 : ℚ) / d.fraction.2 = n.natAbs := by
      rw [← abs_toRat_eq_div, hn, ← Int.cast_abs, Nat.cast_natAbs]
    rw [div_eq_iff hden, mul_comm] at habs
    exact h (Nat.mod_eq_zero_of_dvd ⟨n.natAbs, by exact_mod_cast habs⟩)

theorem toInt?_eq_none_iff : d.toInt? = none ↔ ¬ d.IsIntegral := by
  simp only [Option.eq_none_iff_forall_ne_some, ne_eq, toInt?_eq_some_iff, IsIntegral, not_exists]

example : toInt? ⟨true, 120, -1⟩ = some (-12) ∧ toInt? ⟨false, 5, -1⟩ = none := by decide +kernel

theorem isIntegral_of_abs_eq (h : |d.toRat| = n) : d.IsIntegral := by
  rcases (abs_eq (Nat.cast_nonneg n)).1 h with h | h
  · exact ⟨n, by simpa using h⟩
  · exact ⟨-n, by simpa using h⟩

theorem toRat_ne_zero (h : ¬ d.IsIntegral) : d.toRat ≠ 0 :=
  fun hzero => h ⟨0, by simpa using hzero⟩

theorem fraction_num_pos (hne : d.toRat ≠ 0) : 0 < d.fraction.1 := by
  refine Nat.pos_of_ne_zero fun hzero => hne (abs_eq_zero.1 ?_)
  rw [abs_toRat_eq_div, hzero, Nat.cast_zero, zero_div]

theorem toRat_neg_iff (hne : d.toRat ≠ 0) : d.toRat < 0 ↔ d.negative = true := by
  have hpos : (0 : ℚ) < d.coefficient * 10 ^ d.exponent := abs_toRat d ▸ abs_pos.2 hne
  unfold toRat
  cases d.negative <;> simp [hpos, hpos.le]

/-! ## Digits -/

/-- The value needs at most `p` digits: it is a natural number below `10 ^ p`, times a power of ten
and up to the sign. -/
def HasDigits (p : ℕ) (d : Decimal) : Prop :=
  ∃ (digits : ℕ) (exponent : ℤ), digits < 10 ^ p ∧ |d.toRat| = digits * 10 ^ exponent

theorem HasDigits.mono {q : ℕ} (h : d.HasDigits p) (hle : p ≤ q) : d.HasDigits q := by
  obtain ⟨digits, exponent, hlt, hvalue⟩ := h
  exact ⟨digits, exponent, hlt.trans_le (Nat.pow_le_pow_right (by decide) hle), hvalue⟩

/-- Digits that make up no integer do not all stand before the decimal point. -/
theorem abs_toRat_lt (hdigits : d.HasDigits p) (hintegral : ¬ d.IsIntegral) :
    |d.toRat| < 10 ^ p := by
  obtain ⟨digits, exponent, hlt, hvalue⟩ := hdigits
  have hexponent : exponent ≤ 0 := by
    refine le_of_not_gt fun hpos => hintegral ?_
    obtain ⟨k, rfl⟩ := Int.eq_ofNat_of_zero_le hpos.le
    exact isIntegral_of_abs_eq (n := digits * 10 ^ k) (by rw [hvalue]; norm_cast)
  calc |d.toRat| = digits * 10 ^ exponent := hvalue
    _ ≤ digits * 1 :=
      mul_le_mul_of_nonneg_left (zpow_le_one_of_nonpos₀ (by norm_num) hexponent) (by positivity)
    _ < 10 ^ p := by rw [mul_one]; exact_mod_cast hlt

theorem dropTrailingZeros_zero : dropTrailingZeros 0 = 0 := by
  rw [dropTrailingZeros, if_neg fun ⟨h, _⟩ => Nat.lt_irrefl _ h]

/-- What is dropped are zeros. -/
theorem exists_dropTrailingZeros_mul (n : ℕ) : ∃ zeros, dropTrailingZeros n * 10 ^ zeros = n := by
  fun_induction dropTrailingZeros n with
  | case1 n h ih =>
    obtain ⟨zeros, hzeros⟩ := ih
    refine ⟨zeros + 1, ?_⟩
    rw [pow_succ, ← mul_assoc, hzeros, Nat.div_mul_cancel (Nat.dvd_of_mod_eq_zero h.2)]
  | case2 n h => exact ⟨0, by simp⟩

/-- All of them are dropped. -/
theorem not_dvd_dropTrailingZeros (hn : 0 < n) : ¬ 10 ∣ dropTrailingZeros n := by
  fun_induction dropTrailingZeros n with
  | case1 n h ih =>
    exact ih (Nat.div_pos (Nat.le_of_dvd h.1 (Nat.dvd_of_mod_eq_zero h.2)) (by decide))
  | case2 n h => exact fun hdvd => h ⟨hn, Nat.mod_eq_zero_of_dvd hdvd⟩

/-- Two ways to write a value agree on the digits from any place on. -/
theorem mul_pow_eq_mul_pow {m a b : ℕ} {e f : ℤ} (h : (n : ℚ) * 10 ^ e = m * 10 ^ f)
    (hplace : e - a = f - b) : n * 10 ^ a = m * 10 ^ b := by
  have hshift (c k : ℕ) (g : ℤ) : (c : ℚ) * 10 ^ g = (c * 10 ^ k : ℕ) * 10 ^ (g - k) := by
    rw [Nat.cast_mul, Nat.cast_pow, Nat.cast_ofNat, mul_assoc, ← zpow_natCast,
      ← zpow_add₀ (by norm_num), add_sub_cancel]
  rw [hshift n a, hshift m b, hplace] at h
  exact_mod_cast mul_right_cancel₀ (zpow_ne_zero (f - b) (by norm_num)) h

/-- Of the ways to write a value, the one without trailing zeros has the least coefficient. -/
theorem le_of_mul_zpow_eq {m : ℕ} {e f : ℤ} (hn : ¬ 10 ∣ n)
    (h : (n : ℚ) * 10 ^ e = m * 10 ^ f) : n ≤ m := by
  rcases le_or_gt f e with hle | hlt
  · obtain ⟨k, rfl⟩ := Int.le.dest hle
    have hm : n * 10 ^ k = m * 10 ^ 0 := mul_pow_eq_mul_pow h (by omega)
    rw [pow_zero, mul_one] at hm
    exact hm ▸ Nat.le_mul_of_pos_right n (Nat.pow_pos (by decide))
  · obtain ⟨k, hk⟩ := Int.le.dest (Int.add_one_le_iff.2 hlt)
    have hm : m * 10 ^ (k + 1) = n * 10 ^ 0 := mul_pow_eq_mul_pow h.symm (by omega)
    rw [pow_zero, mul_one, pow_succ] at hm
    exact absurd (hm ▸ Dvd.intro_left _ (mul_assoc ..)) hn

/-- The digits that a value needs are those of the coefficient without its trailing zeros. -/
theorem hasDigits_iff (hp : 0 < p) :
    d.HasDigits p ↔ digitCount (dropTrailingZeros d.coefficient) ≤ p := by
  obtain ⟨zeros, hzeros⟩ := exists_dropTrailingZeros_mul d.coefficient
  have hvalue : |d.toRat| = dropTrailingZeros d.coefficient * 10 ^ (zeros + d.exponent) := by
    rw [abs_toRat, zpow_add₀ (by norm_num), zpow_natCast, ← mul_assoc]
    exact_mod_cast congrArg (fun c : ℕ => (c : ℚ) * 10 ^ d.exponent) hzeros.symm
  rw [digitCount_le_iff hp]
  constructor
  · rintro ⟨digits, exponent, hlt, heq⟩
    rcases Nat.eq_zero_or_pos d.coefficient with hzero | hpos
    · rw [hzero, dropTrailingZeros_zero]
      exact Nat.pow_pos (by decide)
    · exact lt_of_le_of_lt
        (le_of_mul_zpow_eq (not_dvd_dropTrailingZeros hpos) (hvalue.symm.trans heq)) hlt
  · exact fun hlt => ⟨_, _, hlt, hvalue⟩

/-! ## Rounding to the working precision -/

/-- The number rounded to the working precision. -/
def rounded (d : Decimal) : Decimal where
  negative := d.negative
  coefficient := roundToPrecision workingPrecision d.coefficient
  exponent := d.exponent + (digitCount d.coefficient - workingPrecision : ℕ)

theorem significantDigits_le_iff (hp : 0 < p) :
    d.significantDigits ≤ p ↔ d.rounded.HasDigits p := by
  rw [hasDigits_iff hp, significantDigits, rounded]

/-- Rounding drops no more than zeros if the digits before them fit. -/
theorem roundToPrecision_mul_pow (hp : 0 < p) (hn : digitCount n ≤ p) (zeros : ℕ) :
    roundToPrecision p (n * 10 ^ zeros) * 10 ^ (digitCount (n * 10 ^ zeros) - p) =
      n * 10 ^ zeros := by
  have hlt : n * 10 ^ zeros < 10 ^ (p + zeros) := by
    rw [pow_add]
    exact Nat.mul_lt_mul_of_pos_right ((digitCount_le_iff hp).1 hn) (Nat.pow_pos (by decide))
  have hcount : digitCount (n * 10 ^ zeros) ≤ p + zeros :=
    (digitCount_le_iff (Nat.add_pos_left hp zeros)).2 hlt
  obtain ⟨kept, hkept⟩ := Nat.exists_eq_add_of_le (Nat.sub_le_iff_le_add'.2 hcount)
  have hsplit : n * 10 ^ zeros = n * 10 ^ kept * 10 ^ (digitCount (n * 10 ^ zeros) - p) := by
    rw [mul_assoc, ← pow_add, Nat.add_comm kept, ← hkept]
  have hround := roundQuotient_mul (Nat.pow_pos (n := digitCount (n * 10 ^ zeros) - p)
    (show 0 < 10 by decide)) (n * 10 ^ kept)
  rw [← hsplit] at hround
  rw [roundToPrecision, Nat.pow_eq, hround, ← hsplit]

/-- Rounding keeps a value that the working precision can hold. -/
theorem toRat_rounded (h : d.HasDigits workingPrecision) : d.rounded.toRat = d.toRat := by
  have hcount := (hasDigits_iff (by decide)).1 h
  obtain ⟨zeros, hzeros⟩ := exists_dropTrailingZeros_mul d.coefficient
  have hround := roundToPrecision_mul_pow (by decide) hcount zeros
  rw [hzeros] at hround
  refine toRat_eq_of_abs_eq rfl ?_
  simp only [abs_toRat, rounded]
  rw [zpow_add₀ (by norm_num), zpow_natCast, mul_left_comm, mul_comm (d.coefficient : ℚ)]
  exact_mod_cast congrArg (fun c : ℕ => (10 : ℚ) ^ d.exponent * c) hround

theorem hasDigits_rounded_iff (h : d.HasDigits workingPrecision) :
    d.rounded.HasDigits p ↔ d.HasDigits p := by
  rw [HasDigits, toRat_rounded h, HasDigits]

end Decimal

end RequestPlan
