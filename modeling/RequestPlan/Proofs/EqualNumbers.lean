import RequestPlan.Proofs.LiteralCoercion

/-!
# Equal numbers in the place of texts

A number can be written in many ways: with zeros at the end, with a fraction or without one, and
with any exponent that moves the point. Whether it turns into an integer or into a double, and into
which, depends on its value alone. Zero is an exception, as only the exponent that it is written
with says where its digit stands.

* `Decimal.adjustedExponent_congr`, `Decimal.abs_toRat_rounded_congr`: the place of the first digit
  and the rounded number depend on the value;
* `Scalar.ofNumber_congr`: so does the number that a text turns into;
* `Scalar.ofRaw_congr`: literals of one value stand for one number.
-/

namespace RequestPlan

namespace Decimal

variable {first second : Decimal}

theorem adjustedExponent_congr (hne : first.toRat ≠ 0) (h : first.toRat = second.toRat) :
    first.adjustedExponent = second.adjustedExponent := by
  rw [adjustedExponent_eq_log hne, adjustedExponent_eq_log (h ▸ hne), h]

theorem hasDigits_digitCount (d : Decimal) : d.HasDigits (digitCount d.coefficient) :=
  ⟨d.coefficient, d.exponent, lt_pow_digitCount d.coefficient, d.abs_toRat⟩

theorem hasDigits_congr (h : first.toRat = second.toRat) (p : ℕ) :
    first.HasDigits p ↔ second.HasDigits p := by
  rw [HasDigits, HasDigits, h]

theorem lt_digitCount_of_not_hasDigits {d : Decimal} {p : ℕ} (h : ¬ d.HasDigits p) :
    p < digitCount d.coefficient :=
  not_le.1 fun hle => h (d.hasDigits_digitCount.mono hle)

/-- Two ways to write a number that are both too long for the working precision are cut off in the
same place, counted from the first digit. -/
theorem rounded_exponent_congr (hne : first.toRat ≠ 0) (h : first.toRat = second.toRat)
    (hlong : ¬ first.HasDigits workingPrecision) :
    first.rounded.exponent = second.rounded.exponent := by
  have hfirst := lt_digitCount_of_not_hasDigits hlong
  have hsecond := lt_digitCount_of_not_hasDigits (mt (hasDigits_congr h _).2 hlong)
  have hadjusted := adjustedExponent_congr hne h
  unfold adjustedExponent at hadjusted
  simp only [rounded]
  omega

theorem rounded_coefficient_congr (hne : first.toRat ≠ 0) (h : first.toRat = second.toRat)
    (hlong : ¬ first.HasDigits workingPrecision) :
    first.rounded.coefficient = second.rounded.coefficient := by
  have hplace := rounded_exponent_congr hne h hlong
  simp only [rounded] at hplace
  have hvalue : (first.coefficient : ℚ) * 10 ^ first.exponent =
      second.coefficient * 10 ^ second.exponent := by
    rw [← abs_toRat, ← abs_toRat, h]
  exact roundQuotient_congr (Nat.pow_pos (by decide)) (Nat.pow_pos (by decide))
    (mul_pow_eq_mul_pow hvalue (by omega))

/-- Rounding to the working precision gives one number for all ways to write a value. -/
theorem abs_toRat_rounded_congr (hne : first.toRat ≠ 0) (h : first.toRat = second.toRat) :
    |first.rounded.toRat| = |second.rounded.toRat| := by
  by_cases hdigits : first.HasDigits workingPrecision
  · rw [toRat_rounded hdigits, toRat_rounded ((hasDigits_congr h _).1 hdigits), h]
  · rw [abs_toRat, abs_toRat, rounded_exponent_congr hne h hdigits,
      rounded_coefficient_congr hne h hdigits]

end Decimal

namespace Scalar

open Decimal (Literal)

variable {text other : String} {first second : Decimal} {literal alternative : Literal}
  {value : Scalar}

/-- The value is an integer or a double. -/
def IsNumber : Scalar → Prop
  | raw (.int _) | double _ => True
  | _ => False

theorem fitsExponentRange_of_ofNumber (h : ofNumber text first = .ok value) :
    first.FitsExponentRange := by
  by_contra hfits
  rw [ofNumber_eq_error_iff.2 ⟨hfits, rfl⟩] at h
  cases h

/-- What a number turns into depends on its value, if its exponents can be held. -/
theorem ofNumber_congr (hne : first.toRat ≠ 0) (h : first.toRat = second.toRat)
    (hfits : second.FitsExponentRange) (hvalue : ofNumber text first = .ok value)
    (hnumber : value.IsNumber) : ofNumber other second = .ok value := by
  have hnear := Decimal.adjustedExponent_congr hne h
  match value, hnumber with
  | raw (.int n), _ =>
    obtain ⟨-, hfirst, hint⟩ := ofNumber_eq_int_iff.1 hvalue
    exact ofNumber_eq_int_iff.2 ⟨hfits, hnear ▸ hfirst, h ▸ hint⟩
  | double x, _ =>
    obtain ⟨hintegral, -, hfirst, hdigits, rfl⟩ := ofNumber_eq_double_iff.1 hvalue
    rw [Decimal.IsIntegral, h] at hintegral
    rw [Decimal.HasDigits, Decimal.abs_toRat_rounded_congr hne h] at hdigits
    exact ofNumber_eq_double_iff.2
      ⟨hintegral, hfits, hnear ▸ hfirst, hdigits, Decimal.toBinary64_congr hne h⟩

/-- **Literals of one value stand for one number**, unless the value is zero: if one of them turns
into an integer or a double, and the exponents of the other can be held, then the other turns into
the same integer or the same double. -/
theorem ofRaw_congr (htext : literal.toList = text.toList)
    (hother : alternative.toList = other.toList) (hne : literal.value ≠ 0)
    (h : literal.value = alternative.value) (hvalue : ofRaw (.text text) = .ok value)
    (hnumber : value.IsNumber) {value' : Scalar} (hvalue' : ofRaw (.text other) = .ok value') :
    value' = value := by
  rw [ofRaw_of_toList_eq htext] at hvalue
  rw [ofRaw_of_toList_eq hother] at hvalue'
  have hfits := fitsExponentRange_of_ofNumber hvalue'
  rw [← literal.toRat_number] at hne h
  rw [← alternative.toRat_number] at h
  rw [ofNumber_congr hne h hfits hvalue hnumber] at hvalue'
  exact (Except.ok.inj hvalue').symm

-- Zero is near one only if it is written with a small exponent.
example : ofRaw (.text "0") = .ok (raw (.int 0)) ∧
    ofRaw (.text "0e400") = .ok (raw (.text "0e400")) := by decide +kernel

/-- A fraction, with a zero at the end and its point moved. -/
theorem ofRaw_congr_fraction :
    ∃ literal alternative : Literal, literal.toList = "-12.5".toList ∧
      alternative.toList = "-0.1250e2".toList ∧ literal.value ≠ 0 ∧
      literal.value = alternative.value ∧
      ofRaw (.text "-12.5") = .ok (double (Binary64.nearest true 125 10)) ∧
      (double (Binary64.nearest true 125 10)).IsNumber ∧
      ∃ value, ofRaw (.text "-0.1250e2") = .ok value ∧
        value = double (Binary64.nearest true 125 10) := by
  obtain ⟨literal, htext, hnumber⟩ := Decimal.ofText?_eq_some_iff.1
    (show Decimal.ofText? "-12.5".toList = some ⟨true, 125, -1⟩ by decide +kernel)
  obtain ⟨alternative, hother, hnumber'⟩ := Decimal.ofText?_eq_some_iff.1
    (show Decimal.ofText? "-0.1250e2".toList = some ⟨true, 1250, -2⟩ by decide +kernel)
  have hvalue : literal.value = -25 / 2 := by
    rw [← literal.toRat_number, hnumber]
    norm_num [Decimal.toRat]
  have hvalue' : alternative.value = -25 / 2 := by
    rw [← alternative.toRat_number, hnumber']
    norm_num [Decimal.toRat]
  have hne : literal.value ≠ 0 := by
    rw [hvalue]
    norm_num
  have heq : literal.value = alternative.value := hvalue.trans hvalue'.symm
  have hread : ofRaw (.text "-12.5") = .ok (double (Binary64.nearest true 125 10)) := by
    decide +kernel
  have hread' : ofRaw (.text "-0.1250e2") = .ok (double (Binary64.nearest true 1250 100)) := by
    decide +kernel
  exact ⟨literal, alternative, htext, hother, hne, heq, hread, trivial, _, hread',
    ofRaw_congr htext hother hne heq hread trivial hread'⟩

end Scalar

end RequestPlan
