import RequestPlan.Rounding

/-!
# Binary64 numbers

The finite and infinite numbers of the 64-bit binary format. The magnitudes of one sign are numbered
in ascending order, and the number of a magnitude is its bit pattern: 2⁵² magnitudes share each
power of two, the first 2⁵² are the subnormal ones, and infinity follows the greatest finite one.

* `Binary64`: a sign and the number of a magnitude;
* `nearest`: the number nearest to a fraction, a half going to the even neighbour;
* `toBits`: the bit pattern.
-/

namespace RequestPlan

/-- A finite or infinite binary64 number: its sign and the bit pattern of its magnitude. -/
structure Binary64 where
  negative : Bool
  magnitude : Nat
  magnitude_le : magnitude ≤ 0x7FF0000000000000
  deriving DecidableEq

namespace Binary64

/-- The bit pattern of infinity. -/
def infinity : Nat := 0x7FF0000000000000

/-- Whether the number is finite. -/
def IsFinite (x : Binary64) : Prop := x.magnitude < infinity

instance (x : Binary64) : Decidable x.IsFinite := inferInstanceAs (Decidable (_ < _))

/-- The greatest power of two that is not above the fraction `num / den`. -/
def binaryExponent (num den : Nat) : Int :=
  let guess := (num.log2 : Int) - den.log2
  if den <<< guess.toNat ≤ num <<< (-guess).toNat then guess else guess - 1

/-- The power of two that the last bit of the magnitude nearest to the fraction counts. -/
def unitExponent (num den : Nat) : Int :=
  max (binaryExponent num den - 52) (-1074)

/-- The fraction in units of the given power of two, rounded. -/
def roundToUnit (num den : Nat) (unit : Int) : Nat :=
  roundQuotient (num <<< (-unit).toNat) (den <<< unit.toNat)

/-- The number nearest to `± num / den`; beyond the greatest finite number it is infinity. -/
def nearest (negative : Bool) (num den : Nat) : Binary64 :=
  let unit := unitExponent num den
  { negative
    magnitude := min infinity ((unit + 1074).toNat <<< 52 + roundToUnit num den unit)
    magnitude_le := Nat.min_le_left .. }

/-- The bit pattern of the number. -/
def toBits (x : Binary64) : Nat :=
  (if x.negative then 0x8000000000000000 else 0) + x.magnitude

end Binary64

end RequestPlan
