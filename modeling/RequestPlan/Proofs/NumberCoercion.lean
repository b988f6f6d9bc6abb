import RequestPlan.Proofs.CompileOutcome
import RequestPlan.Proofs.NearestBinary64

/-!
# Numbers in the place of texts

When a text turns into a double, and whether it keeps its digits then. The digits are counted after
rounding to the working precision, but the double is made of the number as it is written. A number
of more digits than the working precision holds can therefore round to few digits, and turn into a
double that keeps none of the others.

* `Scalar.ofNumber_eq_int_iff`, `Scalar.ofNumber_eq_double_iff`, `Scalar.ofNumber_eq_self_iff`: the
  numbers that turn into an integer, those that turn into a double, and those that stay texts;
* `Scalar.ofRaw_eq_double_iff`: the texts that turn into a double;
* `Scalar.ofRaw_eq_self_iff`: the fractions that stay texts;
* `Scalar.KeepsDigits`: a double stands for few digits only, and more digits stay a text;
* `Scalar.keepsDigits_iff`: what a text has to be for that;
* `Scalar.keepsDigits_of_hasDigits`: the working precision is enough.
-/

namespace RequestPlan.Scalar

variable {text : String} {number : Decimal}

theorem ofRaw_of_ofText? (h : Decimal.ofText? text.toList = some number) :
    ofRaw (.text text) = ofNumber text number := by
  simp only [ofRaw, ofText, ofWord?_eq_none_of_ofText? h, h]

theorem not_digitLimit_lt_iff :
    ¬ digitLimit < number.significantDigits ↔ number.rounded.HasDigits digitLimit := by
  rw [not_lt, Decimal.significantDigits_le_iff (by decide)]

/-- A number near enough to one turns into an integer if it is one. -/
theorem ofNumber_eq_int_iff {n : ℤ} :
    ofNumber text number = .ok (raw (.int n)) ↔
      number.FitsExponentRange ∧ number.adjustedExponent.natAbs ≤ exponentLimit ∧
        number.toRat = n := by
  rw [← Decimal.toInt?_eq_some_iff, ← not_lt, ofNumber]
  cases number.toInt? with
  | some m => split_ifs <;> simp_all
  | none => split_ifs <;> simp

/-- A number turns into a double if it is no integer, near enough to one, and short enough once it
is rounded. -/
theorem ofNumber_eq_double_iff {x : Binary64} :
    ofNumber text number = .ok (double x) ↔
      ¬ number.IsIntegral ∧ number.FitsExponentRange ∧
        number.adjustedExponent.natAbs ≤ exponentLimit ∧
        number.rounded.HasDigits digitLimit ∧ x = number.toBinary64 := by
  rw [← Decimal.toInt?_eq_none_iff, ← not_digitLimit_lt_iff, ← not_lt, ofNumber]
  cases number.toInt? with
  | some n => split_ifs <;> simp
  | none => split_ifs <;> simp_all [eq_comm]

/-- A number stays a text if it is far from one, or no integer and too long once it is rounded. -/
theorem ofNumber_eq_self_iff :
    ofNumber text number = .ok (raw (.text text)) ↔
      number.FitsExponentRange ∧
        (number.adjustedExponent.natAbs ≤ exponentLimit →
          ¬ number.IsIntegral ∧ ¬ number.rounded.HasDigits digitLimit) := by
  rw [← Decimal.toInt?_eq_none_iff, ← not_digitLimit_lt_iff, ← not_lt, ofNumber]
  cases number.toInt? with
  | some n => split_ifs <;> simp_all
  | none => split_ifs <;> simp_all

-- Near the end of the range the double can be infinite, for digits that rounding drops.
example : Decimal.significantDigits ⟨false, 18 * 10 ^ 308 + 5, -1⟩ = 2 ∧
    ¬ (Decimal.toBinary64 ⟨false, 18 * 10 ^ 308 + 5, -1⟩).IsFinite := by decide +kernel

theorem ofRaw_eq_double_iff {x : Binary64} :
    ofRaw (.text text) = .ok (double x) ↔
      ∃ number, Decimal.ofText? text.toList = some number ∧ ¬ number.IsIntegral ∧
        number.FitsExponentRange ∧ number.adjustedExponent.natAbs ≤ exponentLimit ∧
        number.rounded.HasDigits digitLimit ∧ x = number.toBinary64 := by
  cases hnumber : Decimal.ofText? text.toList with
  | none =>
    simp only [ofRaw, ofText, hnumber]
    cases ofWord? text <;> simp
  | some number => simp [ofRaw_of_ofText? hnumber, ofNumber_eq_double_iff]

/-- A fraction stays a text if it is far from one, or still too long once it is rounded. -/
theorem ofRaw_eq_self_iff (hnumber : Decimal.ofText? text.toList = some number)
    (hintegral : ¬ number.IsIntegral) :
    ofRaw (.text text) = .ok (raw (.text text)) ↔
      number.FitsExponentRange ∧
        (number.adjustedExponent.natAbs ≤ exponentLimit →
          ¬ number.rounded.HasDigits digitLimit) := by
  simp only [ofRaw_of_ofText? hnumber, ofNumber_eq_self_iff, hintegral, not_false_eq_true,
    true_and]

/-! ## Digits kept -/

/-- If the text turns into a double, it writes a number that is no integer and needs no more digits
than a double keeps, and the double is the finite one nearest to it; a number that is no integer and
needs more digits stays a text. -/
structure KeepsDigits (text : String) : Prop where
  double : ∀ {x : Binary64}, ofRaw (.text text) = .ok (double x) →
    ∃ number, Decimal.ofText? text.toList = some number ∧ ¬ number.IsIntegral ∧
      number.HasDigits digitLimit ∧ x = number.toBinary64 ∧ x.IsFinite
  text : ∀ {number : Decimal}, Decimal.ofText? text.toList = some number → ¬ number.IsIntegral →
    ¬ number.HasDigits digitLimit → ofRaw (.text text) = .ok (raw (.text text))

theorem keepsDigits_of_forall
    (h : ∀ number, Decimal.ofText? text.toList = some number → ¬ number.IsIntegral →
      ¬ number.HasDigits digitLimit → number.FitsExponentRange ∧
        (number.adjustedExponent.natAbs ≤ exponentLimit → ¬ number.rounded.HasDigits digitLimit)) :
    KeepsDigits text where
  double hdouble := by
    obtain ⟨number, hnumber, hintegral, -, hnear, hrounded, rfl⟩ := ofRaw_eq_double_iff.1 hdouble
    have hdigits : number.HasDigits digitLimit :=
      Classical.byContradiction fun hmany => (h number hnumber hintegral hmany).2 hnear hrounded
    exact ⟨number, hnumber, hintegral, hdigits, rfl,
      Decimal.isFinite_toBinary64 hdigits hintegral⟩
  text hnumber hintegral hmany :=
    (ofRaw_eq_self_iff hnumber hintegral).2 (h _ hnumber hintegral hmany)

/-- The working precision is enough: a number that it holds is not rounded before its digits are
counted. -/
theorem keepsDigits_of_hasDigits
    (h : ∀ number, Decimal.ofText? text.toList = some number →
      number.FitsExponentRange ∧ number.HasDigits Decimal.workingPrecision) :
    KeepsDigits text := by
  refine keepsDigits_of_forall fun number hnumber _ hmany => ?_
  obtain ⟨hfits, hprecision⟩ := h number hnumber
  exact ⟨hfits, fun _ hrounded => hmany ((Decimal.hasDigits_rounded_iff hprecision).1 hrounded)⟩

/-- A text keeps its digits unless it writes a number that is no integer and has too many digits,
and that number is out of all bounds, or near one and short once it is rounded. -/
theorem keepsDigits_iff (text : String) :
    KeepsDigits text ↔
      ∀ number, Decimal.ofText? text.toList = some number → ¬ number.IsIntegral →
        ¬ number.HasDigits digitLimit → number.FitsExponentRange ∧
          (number.adjustedExponent.natAbs ≤ exponentLimit →
            ¬ number.rounded.HasDigits digitLimit) :=
  ⟨fun h _ hnumber hintegral hmany =>
    (ofRaw_eq_self_iff hnumber hintegral).1 (h.text hnumber hintegral hmany),
    keepsDigits_of_forall⟩

/-- The last of these digits does not survive rounding to the working precision. -/
theorem not_keepsDigits_long_fraction :
    ofRaw (.text "1.0000000000000000000000000001") =
        .ok (double (Binary64.nearest false 1 1)) ∧
      ¬ KeepsDigits "1.0000000000000000000000000001" := by
  have hdouble : ofRaw (.text "1.0000000000000000000000000001") =
      .ok (double (Binary64.nearest false 1 1)) := by decide +kernel
  refine ⟨hdouble, fun h => ?_⟩
  have hnumber : Decimal.ofText? "1.0000000000000000000000000001".toList =
      some ⟨false, 10000000000000000000000000001, -28⟩ := by decide +kernel
  have htext := h.text hnumber (Decimal.toInt?_eq_none_iff.1 (by decide +kernel))
    (mt (Decimal.hasDigits_iff (by decide)).1 (by decide +kernel))
  rw [hdouble] at htext
  cases htext

end RequestPlan.Scalar
