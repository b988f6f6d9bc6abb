import RequestPlan.Rounding

/-!
# Decimal numbers

Decimal numbers in scientific form: a sign, a natural coefficient and a power of ten. Different
forms may denote the same number, as 12 · 10⁰ and 120 · 10⁻¹ do.

* `digitCount`: the number of decimal digits of a natural number;
* `adjustedExponent`: the power of ten of the first digit;
* `FitsExponentRange`: whether the exponents of its first and its last digit can be held;
* `toInt?`: the number, if it is integral;
* `significantDigits`: how many digits remain when the number is rounded to the working precision
  and its trailing zeros are dropped.
-/

namespace RequestPlan

/-- The decimal number `± coefficient · 10 ^ exponent`. -/
structure Decimal where
  negative : Bool
  coefficient : Nat
  exponent : Int
  deriving DecidableEq, Repr

namespace Decimal

/-- The number of decimal digits of a natural number; zero has one. -/
def digitCount (n : Nat) : Nat :=
  (Nat.toDigits 10 n).length

/-- The natural number without the zeros at the end of its decimal form. -/
def dropTrailingZeros (n : Nat) : Nat :=
  if 0 < n ∧ n % 10 = 0 then dropTrailingZeros (n / 10) else n
termination_by n
decreasing_by omega

/-- The natural number with all but its first `precision` digits rounded away. -/
def roundToPrecision (precision n : Nat) : Nat :=
  roundQuotient n (Nat.pow 10 (digitCount n - precision))

/-- The precision to which a number is rounded before its digits are counted. -/
def workingPrecision : Nat := 28

/-- The greatest adjusted exponent that can be held. -/
def greatestExponent : Int := 999999999999999999

/-- The least exponent of a last digit that can be held. -/
def leastExponent : Int := -1999999999999999997

/-- The power of ten that the first digit counts; for zero, that of its only digit. -/
def adjustedExponent (d : Decimal) : Int :=
  d.exponent + digitCount d.coefficient - 1

/-- Whether the exponents of the first and of the last digit can both be held. -/
def FitsExponentRange (d : Decimal) : Prop :=
  d.adjustedExponent ≤ greatestExponent ∧ leastExponent ≤ d.exponent

instance (d : Decimal) : Decidable d.FitsExponentRange :=
  inferInstanceAs (Decidable (_ ∧ _))

/-- The magnitude as a fraction: its numerator and its denominator. -/
def fraction (d : Decimal) : Nat × Nat :=
  (d.coefficient * Nat.pow 10 d.exponent.toNat, Nat.pow 10 (-d.exponent).toNat)

/-- The integer that the number is, if it is one. -/
def toInt? (d : Decimal) : Option Int :=
  let (num, den) := d.fraction
  if num % den = 0 then
    some (if d.negative then -(num / den : Nat) else (num / den : Nat))
  else none

/-- The number of digits that are left of the number rounded to the working precision, trailing
zeros not counted. -/
def significantDigits (d : Decimal) : Nat :=
  digitCount (dropTrailingZeros (roundToPrecision workingPrecision d.coefficient))

theorem digitCount_pos (n : Nat) : 0 < digitCount n :=
  Nat.length_toDigits_pos

/-- A natural number has at most `k` digits when it lies below the `k`-th power of ten. -/
theorem digitCount_le_iff {n k : Nat} (hk : 0 < k) : digitCount n ≤ k ↔ n < Nat.pow 10 k :=
  Nat.length_toDigits_le_iff (by decide) hk

theorem lt_pow_digitCount (n : Nat) : n < Nat.pow 10 (digitCount n) :=
  (digitCount_le_iff (digitCount_pos n)).1 (Nat.le_refl _)

theorem fraction_den_pos (d : Decimal) : 0 < d.fraction.2 :=
  Nat.pow_pos (by decide)

end Decimal

end RequestPlan
