import RequestPlan.Scalar
import RequestPlan.Vocabulary

/-!
# Filters

A filter compares a field of an aliased table with a value: a text that holds the marker is a
pattern, every other value is compared as the scalar that it stands for.

* `Comparison`, `Connective`, `Filter`: filters;
* `Vocabulary.pattern?`: the pattern that a value writes;
* `Comparison.ofRaw`: the comparison that a value asks for.
-/

namespace RequestPlan

/-- How a field is compared. -/
inductive Comparison where
  /-- Equality with a scalar. -/
  | equals (value : Scalar)
  /-- A match against a pattern. -/
  | like (pattern : String)
  deriving DecidableEq

/-- How a filter combines with the others of its group. -/
inductive Connective where
  | and
  | or
  deriving DecidableEq, Repr

/-- A condition on a field of an aliased table. -/
structure Filter where
  tableAlias : String
  field : String
  comparison : Comparison
  connective : Connective
  deriving DecidableEq

/-- The pattern that a value writes, if it is one: a text in which the marker occurs, with a
wildcard for each marker. -/
def Vocabulary.pattern? (v : Vocabulary) : RawValue → Option String
  | .text text =>
    if Text.occurs v.marker.toList text.toList then
      some (String.ofList (Text.replaceAll v.marker.toList v.wildcard.toList text.toList))
    else none
  | _ => none

/-- Whether a value is a pattern. -/
def Vocabulary.isPattern (v : Vocabulary) (value : RawValue) : Bool :=
  (v.pattern? value).isSome

/-- The comparison that a value asks for. -/
def Comparison.ofRaw (v : Vocabulary) (value : RawValue) : Except Error Comparison :=
  match v.pattern? value with
  | some pattern => .ok (like pattern)
  | none => (Scalar.ofRaw value).map equals

/-- The filter that compares the field with a value. -/
def Filter.ofRaw (v : Vocabulary) (tableAlias field : String) (value : RawValue)
    (connective : Connective) : Except Error Filter :=
  (Comparison.ofRaw v value).map fun comparison => ⟨tableAlias, field, comparison, connective⟩

/-- A value is a pattern when it is a text that holds the marker. -/
theorem Vocabulary.isPattern_iff {v : Vocabulary} {value : RawValue} :
    v.isPattern value = true ↔
      ∃ text, value = .text text ∧ Text.occurs v.marker.toList text.toList = true := by
  cases value <;> simp [isPattern, pattern?]

end RequestPlan
