import RequestPlan.Binary64
import RequestPlan.Decimal.Literal
import RequestPlan.Error

/-!
# Typed scalars

The value that a raw value stands for in a comparison. Four words stand for the truth values and for
nothing; a canonically written number stands for itself if it is integral, or if a double keeps its
digits; every other value stands for itself as it is.

* `Scalar`: the values of comparisons;
* `Scalar.ofRaw`: what a raw value stands for.
-/

namespace RequestPlan

/-- The nearest binary64 number to a decimal number. -/
def Decimal.toBinary64 (d : Decimal) : Binary64 :=
  Binary64.nearest d.negative d.fraction.1 d.fraction.2

/-- The value of a comparison: a raw value, or a double. -/
inductive Scalar where
  | raw (value : RawValue)
  | double (value : Binary64)
  deriving DecidableEq

namespace Scalar

/-- The greatest magnitude of an adjusted exponent at which a literal is read as a number. -/
def exponentLimit : Nat := 308

/-- The number of significant digits that a double keeps. -/
def digitLimit : Nat := 15

/-- The value of a literal, given the number that it writes. -/
def ofNumber (literal : String) (number : Decimal) : Except Error Scalar :=
  if ¬ number.FitsExponentRange then .error (.numberOutOfRange literal)
  else if exponentLimit < number.adjustedExponent.natAbs then .ok (raw (.text literal))
  else
    match number.toInt? with
    | some n => .ok (raw (.int n))
    | none =>
      if digitLimit < number.significantDigits then .ok (raw (.text literal))
      else .ok (double number.toBinary64)

/-- The words that stand for another value. -/
def ofWord? (word : String) : Option RawValue :=
  if word = "true" then some (.bool true)
  else if word = "false" then some (.bool false)
  else if word = "null" ∨ word = "undefined" then some .null
  else none

/-- The value of a text. -/
def ofText (text : String) : Except Error Scalar :=
  match ofWord? text with
  | some value => .ok (raw value)
  | none =>
    match Decimal.ofText? text.toList with
    | some number => ofNumber text number
    | none => .ok (raw (.text text))

/-- The value that a raw value stands for. -/
def ofRaw : RawValue → Except Error Scalar
  | .text text => ofText text
  | value => .ok (raw value)

end Scalar

end RequestPlan
