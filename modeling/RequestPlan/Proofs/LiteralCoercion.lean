import RequestPlan.Proofs.NumberCoercion
import RequestPlan.Proofs.NumberGrammar

/-!
# Literals in the place of numbers

What the text of a literal stands for, in terms of the literal as it is written. A text that is no
literal stays as it is, and an integer that is near enough to one is that integer, whatever way it
is written in. A literal that can be no number stays a text, unless its exponents are out of all
bounds, or it has too many digits and rounding hides them.

* `Scalar.ReadsLiterals`: what each text stands for;
* `Scalar.readsLiterals`: texts of any sensible length, and all integers of up to 309 digits;
* `Scalar.Tolerates`: no text makes a filter fail, and what can be no number stays a text;
* `Scalar.tolerates_iff`: what a text has to be for that.
-/

namespace RequestPlan

namespace Decimal.Literal

/-- The first digit stands at most 308 places away from that of one. -/
def IsNear (literal : Literal) : Prop :=
  -308 ≤ literal.adjustedExponent ∧ literal.adjustedExponent ≤ 308

/-- The literal is near one, and its value is an integer or has few enough digits for a double. -/
def IsRepresentable (literal : Literal) : Prop :=
  literal.IsNear ∧ ((∃ n : ℤ, literal.value = n) ∨ literal.HasDigits 15)

variable {literal : Literal}

theorem isNear_iff :
    literal.IsNear ↔ literal.number.adjustedExponent.natAbs ≤ Scalar.exponentLimit := by
  rw [literal.adjustedExponent_number, IsNear, Scalar.exponentLimit]
  omega

theorem isIntegral_number_iff : literal.number.IsIntegral ↔ ∃ n : ℤ, literal.value = n := by
  rw [IsIntegral, literal.toRat_number]

/-- A literal that is not too long has exponents that can be held if it is near one. -/
theorem fitsExponentRange_number (hlength : literal.toList.length < 10 ^ 15)
    (hnear : literal.IsNear) : literal.number.FitsExponentRange := by
  obtain ⟨hlow, hhigh⟩ := hnear
  have hlast := literal.adjustedExponent_lt
  rw [FitsExponentRange, literal.adjustedExponent_number, greatestExponent, leastExponent]
  omega

end Decimal.Literal

theorem Decimal.not_isOutOfRange_iff {text : String} :
    ¬ IsOutOfRange text ↔
      ∀ literal : Literal, literal.toList = text.toList → literal.number.FitsExponentRange := by
  simp only [IsOutOfRange, ofText?_eq_some_iff]
  constructor
  · intro h literal hliteral
    by_contra hfits
    exact h ⟨literal.number, ⟨literal, hliteral, rfl⟩, hfits⟩
  · rintro h ⟨_, ⟨literal, hliteral, rfl⟩, hfits⟩
    exact hfits (h literal hliteral)

namespace Scalar

open Decimal (Literal)

variable {text : String} {number : Decimal} {literal : Literal}

/-! ## What a text stands for -/

theorem ofRaw_of_toList_eq (h : literal.toList = text.toList) :
    ofRaw (.text text) = ofNumber text literal.number :=
  ofRaw_of_ofText? (Decimal.ofText?_eq_some_iff.2 ⟨literal, h, rfl⟩)

/-- A text that is no word and no literal stays as it is. -/
theorem ofRaw_of_forall_ne (hword : text ∉ ["true", "false", "null", "undefined"])
    (h : ∀ literal : Literal, literal.toList ≠ text.toList) :
    ofRaw (.text text) = .ok (raw (.text text)) := by
  have hnumber : Decimal.ofText? text.toList = none := by
    refine Option.eq_none_iff_forall_ne_some.2 fun number hnumber => ?_
    obtain ⟨literal, hliteral, -⟩ := Decimal.ofText?_eq_some_iff.1 hnumber
    exact h literal hliteral
  rw [ofRaw, ofText, ofWord?_eq_none_iff.2 hword, hnumber]

/-- A literal that is near one stands for the integer that is its value. -/
theorem ofRaw_eq_int (hlength : text.length < 10 ^ 15) (h : literal.toList = text.toList)
    (hnear : literal.IsNear) {n : ℤ} (hvalue : literal.value = n) :
    ofRaw (.text text) = .ok (raw (.int n)) := by
  have hfits : literal.number.FitsExponentRange :=
    literal.fitsExponentRange_number (by rwa [h]) hnear
  rw [ofRaw_of_toList_eq h, ofNumber_eq_int_iff, literal.toRat_number]
  exact ⟨hfits, Literal.isNear_iff.1 hnear, hvalue⟩

/-- What a text stands for, by the literals that it is the text of. -/
structure ReadsLiterals (text : String) : Prop where
  other : (∀ literal : Literal, literal.toList ≠ text.toList) →
    ofRaw (.text text) = .ok (raw (.text text))
  int : ∀ n : ℤ, ofRaw (.text text) = .ok (raw (.int n)) ↔
    ∃ literal : Literal, literal.toList = text.toList ∧ literal.IsNear ∧ literal.value = n
  double : ∀ literal : Literal, literal.toList = text.toList → literal.IsNear →
    (∀ n : ℤ, literal.value ≠ n) → literal.HasDigits 15 →
      ofRaw (.text text) = .ok (double literal.number.toBinary64)

theorem readsLiterals_of_length_lt (hlength : text.length < 10 ^ 15)
    (hword : text ∉ ["true", "false", "null", "undefined"]) : ReadsLiterals text where
  other := ofRaw_of_forall_ne hword
  int n := by
    constructor
    · intro hint
      by_cases hliteral : ∃ literal : Literal, literal.toList = text.toList
      · obtain ⟨literal, h⟩ := hliteral
        rw [ofRaw_of_toList_eq h, ofNumber_eq_int_iff, literal.toRat_number] at hint
        exact ⟨literal, h, Literal.isNear_iff.2 hint.2.1, hint.2.2⟩
      · have hself := ofRaw_of_forall_ne hword (not_exists.1 hliteral)
        rw [hself] at hint
        cases hint
    · rintro ⟨literal, h, hnear, hvalue⟩
      exact ofRaw_eq_int hlength h hnear hvalue
  double literal h hnear hintegral hdigits := by
    have hnumber : literal.number.HasDigits digitLimit :=
      Literal.hasDigits_number.2 hdigits
    have hrounded : literal.number.rounded.HasDigits digitLimit :=
      (Decimal.hasDigits_rounded_iff (hnumber.mono (by decide))).2 hnumber
    rw [ofRaw_of_toList_eq h, ofNumber_eq_double_iff, Literal.isIntegral_number_iff,
      not_exists]
    exact ⟨hintegral, literal.fitsExponentRange_number (by rwa [h]) hnear,
      Literal.isNear_iff.1 hnear, hrounded, rfl⟩

/-- An integer of up to 309 digits is read as itself. -/
theorem ofRaw_toString {n : ℤ} (hn : n.natAbs < 10 ^ 309) :
    ofRaw (.text (toString n)) = .ok (raw (.int n)) := by
  have htext := Literal.toList_ofInt n
  have hlow := Literal.adjustedExponent_ofInt_nonneg n
  have hhigh := (Literal.adjustedExponent_ofInt_lt_iff (by decide)).2 hn
  have hlength : (toString n).length < 10 ^ 15 := by
    have hle := Literal.length_ofInt_le n
    rw [← String.length_toList, ← htext]
    omega
  refine ofRaw_eq_int hlength htext ?_ (Literal.value_ofInt n)
  rw [Literal.IsNear]
  omega

/-- **Texts of any sensible length are read as the literals that they are**, and all integers of up
to 309 digits as themselves. -/
theorem readsLiterals :
    (∀ text : String, text.length < 10 ^ 15 → text ∉ ["true", "false", "null", "undefined"] →
      ReadsLiterals text) ∧
    ∀ n : ℤ, n.natAbs < 10 ^ 309 → ofRaw (.text (toString n)) = .ok (raw (.int n)) :=
  ⟨fun _ => readsLiterals_of_length_lt, fun _ => ofRaw_toString⟩

/-- A negative integer, written with a fraction and an exponent, and as it is usually written. -/
theorem readsLiterals_fraction :
    "-12.50e1".length < 10 ^ 15 ∧ "-12.50e1" ∉ ["true", "false", "null", "undefined"] ∧
      ReadsLiterals "-12.50e1" ∧ ofRaw (.text "-12.50e1") = .ok (raw (.int (-125))) ∧
      (-125 : ℤ).natAbs < 10 ^ 309 ∧
      ofRaw (.text (toString (-125 : ℤ))) = .ok (raw (.int (-125))) := by
  have hlength : "-12.50e1".length < 10 ^ 15 := by decide
  have hword : "-12.50e1" ∉ ["true", "false", "null", "undefined"] := by decide
  have hn : (-125 : ℤ).natAbs < 10 ^ 309 := by decide +kernel
  exact ⟨hlength, hword, readsLiterals.1 _ hlength hword, by decide +kernel, hn,
    readsLiterals.2 _ hn⟩

/-! ## Texts that make nothing fail -/

/-- The text stands for a value and makes a filter of every field, and if it is a literal that can
be no number, then it stands for itself. -/
structure Tolerates (v : Vocabulary) (text : String) : Prop where
  coerced : ∃ value, ofRaw (.text text) = .ok value
  filtered : ∀ (tableAlias field : String) (connective : Connective),
    ∃ filter, Filter.ofRaw v tableAlias field (.text text) connective = .ok filter
  kept : ∀ literal : Literal, literal.toList = text.toList → ¬ literal.IsRepresentable →
    ofRaw (.text text) = .ok (raw (.text text))

theorem exists_ofRaw_iff :
    (∃ value, ofRaw (.text text) = .ok value) ↔ ¬ Decimal.IsOutOfRange text := by
  constructor
  · rintro ⟨value, hvalue⟩ hout
    have herror := ofRaw_eq_error_iff.2 ⟨text, rfl, hout, rfl⟩
    rw [hvalue] at herror
    cases herror
  · intro hin
    rcases exists_ok_or_error (ofRaw (.text text)) with hok | ⟨e, he⟩
    · exact hok
    · obtain ⟨literal, heq, hout, -⟩ := ofRaw_eq_error_iff.1 he
      obtain rfl : text = literal := by simpa using heq
      exact absurd hout hin

/-- A filter can be made if the text is a pattern or stands for a value. -/
theorem exists_filter (v : Vocabulary) (h : ∃ value, ofRaw (.text text) = .ok value)
    (tableAlias field : String) (connective : Connective) :
    ∃ filter, Filter.ofRaw v tableAlias field (.text text) connective = .ok filter := by
  obtain ⟨value, hvalue⟩ := h
  rw [Filter.ofRaw, Comparison.ofRaw, hvalue]
  cases v.pattern? (.text text) with
  | some pattern => exact ⟨_, rfl⟩
  | none => exact ⟨_, rfl⟩

/-- A literal whose exponents can be held stays a text if it is far from one, or has many digits
after rounding. -/
theorem ofRaw_eq_self_of_not_isRepresentable (h : literal.toList = text.toList)
    (hfits : literal.number.FitsExponentRange) (hno : ¬ literal.IsRepresentable) :
    ofRaw (.text text) = .ok (raw (.text text)) ↔
      (literal.IsNear → ¬ literal.number.rounded.HasDigits digitLimit) := by
  rw [ofRaw_of_toList_eq h, ofNumber_eq_self_iff, and_iff_right hfits, ← Literal.isNear_iff,
    Literal.isIntegral_number_iff]
  exact forall_congr' fun hnear => and_iff_right fun hintegral => hno ⟨hnear, .inl hintegral⟩

/-- **A text makes nothing fail**, unless it is a literal whose exponents are out of all bounds or
whose digits are too many for a double but not after rounding. -/
theorem tolerates_iff (v : Vocabulary) (text : String) :
    Tolerates v text ↔
      ∀ literal : Literal, literal.toList = text.toList →
        literal.number.FitsExponentRange ∧
          (¬ literal.IsRepresentable → literal.IsNear →
            ¬ literal.number.rounded.HasDigits digitLimit) := by
  have hcoerced : (∃ value, ofRaw (.text text) = .ok value) ↔
      ∀ literal : Literal, literal.toList = text.toList → literal.number.FitsExponentRange :=
    exists_ofRaw_iff.trans Decimal.not_isOutOfRange_iff
  constructor
  · intro h literal hliteral
    have hfits := hcoerced.1 h.coerced literal hliteral
    exact ⟨hfits, fun hno => (ofRaw_eq_self_of_not_isRepresentable hliteral hfits hno).1
      (h.kept literal hliteral hno)⟩
  · intro h
    have hvalue := hcoerced.2 fun literal hliteral => (h literal hliteral).1
    exact
      { coerced := hvalue
        filtered := exists_filter v hvalue
        kept := fun literal hliteral hno =>
          (ofRaw_eq_self_of_not_isRepresentable hliteral (h literal hliteral).1 hno).2
            ((h literal hliteral).2 hno) }

/-- The exponent of this number is one too large. -/
theorem not_tolerates_huge_exponent :
    ofRaw (.text "1e1000000000000000000") =
        .error (.numberOutOfRange "1e1000000000000000000") ∧
      Filter.ofRaw .conventional "nodes" "kind" (.text "1e1000000000000000000") .and =
        .error (.numberOutOfRange "1e1000000000000000000") ∧
      ¬ Tolerates .conventional "1e1000000000000000000" := by
  have herror : ofRaw (.text "1e1000000000000000000") =
      .error (.numberOutOfRange "1e1000000000000000000") := by decide +kernel
  refine ⟨herror, by decide +kernel, fun h => ?_⟩
  obtain ⟨value, hvalue⟩ := h.coerced
  rw [herror] at hvalue
  cases hvalue

end Scalar

end RequestPlan
