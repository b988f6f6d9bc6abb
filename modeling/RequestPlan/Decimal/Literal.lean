import RequestPlan.Decimal.Basic

/-!
# Number literals

The canonical way to write a decimal number: an optional minus, a whole part without superfluous
zeros, and optionally a fraction and an exponent, each with at least one digit. Only the ten digits
of ASCII are digits.

* `Decimal.ofText?`: the number that a text writes, if the whole text is a literal.
-/

namespace RequestPlan.Decimal

/-- The longest run of digits in front, and what follows it. -/
def leadingDigits (text : List Char) : List Char × List Char :=
  (text.takeWhile Char.isDigit, text.dropWhile Char.isDigit)

/-- The natural number written by decimal digits. -/
def ofDigits (digits : List Char) : Nat :=
  Nat.ofDigitChars 10 digits 0

/-- The digits of the whole part, which is a single zero or starts with another digit, and what
follows them. -/
def wholePart? (text : List Char) : Option (List Char × List Char) :=
  match leadingDigits text with
  | ([], _) => none
  | ('0' :: _ :: _, _) => none
  | (digits, rest) => some (digits, rest)

/-- The digits after the decimal point, none without a point, and what follows them. -/
def fractionPart? (text : List Char) : Option (List Char × List Char) :=
  match text with
  | '.' :: rest =>
    match leadingDigits rest with
    | ([], _) => none
    | (digits, rest) => some (digits, rest)
  | _ => some ([], text)

/-- The number written by a non-empty text of digits. -/
def digitsOnly? (text : List Char) : Option Nat :=
  if text ≠ [] ∧ text.all Char.isDigit then some (ofDigits text) else none

/-- The integer written by digits after an optional sign. -/
def signedDigits? : List Char → Option Int
  | '-' :: digits => (digitsOnly? digits).map fun n => -(n : Int)
  | '+' :: digits => (digitsOnly? digits).map Int.ofNat
  | digits => (digitsOnly? digits).map Int.ofNat

/-- The exponent that makes up the rest of a literal, zero if nothing is left. -/
def exponentPart? : List Char → Option Int
  | [] => some 0
  | mark :: rest => if mark = 'e' ∨ mark = 'E' then signedDigits? rest else none

/-- The magnitude written by a literal without a sign. -/
def ofUnsigned? (negative : Bool) (text : List Char) : Option Decimal := do
  let (whole, rest) ← wholePart? text
  let (fraction, rest) ← fractionPart? rest
  let exponent ← exponentPart? rest
  return ⟨negative, ofDigits (whole ++ fraction), exponent - fraction.length⟩

/-- The number that a text writes, if the text is a literal from its first character to its last. -/
def ofText? : List Char → Option Decimal
  | '-' :: text => ofUnsigned? true text
  | text => ofUnsigned? false text

end RequestPlan.Decimal
