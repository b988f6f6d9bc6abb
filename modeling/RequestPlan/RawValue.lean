import RequestPlan.Text.Quoted

/-!
# Raw values

The values that a request carries: texts, lists of values for keys that were repeated, and now and
then an integer, a truth value or nothing. Messages show a value in one of two ways: as it stands,
or with its texts quoted.

* `RawValue`: the values;
* `RawValue.quoted`, `RawValue.shown`: the two ways to show one;
* `RawValue.typeName`: the name that messages give to its type.
-/

namespace RequestPlan

/-- A value as a request carries it. -/
inductive RawValue where
  | text (value : String)
  | list (values : List RawValue)
  | int (value : Int)
  | bool (value : Bool)
  | null

namespace RawValue

instance : Inhabited RawValue := ⟨null⟩

mutual

/-- Equality of values is decidable. -/
def decEq : (a b : RawValue) → Decidable (a = b)
  | text a, text b => decidable_of_iff (a = b) (by simp)
  | list as, list bs =>
    match decEqLists as bs with
    | isTrue h => isTrue (by rw [h])
    | isFalse h => isFalse fun heq => h (by injection heq)
  | int a, int b => decidable_of_iff (a = b) (by simp)
  | bool a, bool b => decidable_of_iff (a = b) (by simp)
  | null, null => isTrue rfl
  | text _, list _ | text _, int _ | text _, bool _ | text _, null
  | list _, text _ | list _, int _ | list _, bool _ | list _, null
  | int _, text _ | int _, list _ | int _, bool _ | int _, null
  | bool _, text _ | bool _, list _ | bool _, int _ | bool _, null
  | null, text _ | null, list _ | null, int _ | null, bool _ => isFalse (by simp)

/-- Equality of lists of values is decidable. -/
def decEqLists : (as bs : List RawValue) → Decidable (as = bs)
  | [], [] => isTrue rfl
  | [], _ :: _ | _ :: _, [] => isFalse (by simp)
  | a :: as, b :: bs =>
    match decEq a b, decEqLists as bs with
    | isTrue h, isTrue hs => isTrue (by rw [h, hs])
    | isFalse h, _ => isFalse fun heq => h (by injection heq)
    | _, isFalse hs => isFalse fun heq => hs (by injection heq)

end

instance : DecidableEq RawValue := decEq

mutual

/-- The value with its texts quoted. -/
def quoted : RawValue → String
  | text value => Text.quoted value
  | list values => "[" ++ ", ".intercalate (quotedEach values) ++ "]"
  | int value => toString value
  | bool true => "True"
  | bool false => "False"
  | null => "None"

/-- Each of the values with its texts quoted. -/
def quotedEach : List RawValue → List String
  | [] => []
  | value :: values => value.quoted :: quotedEach values

end

/-- The value as it stands: a text without quotes. -/
def shown : RawValue → String
  | text value => value
  | value => value.quoted

/-- The name that messages give to the type of the value. -/
def typeName : RawValue → String
  | text _ => "<class 'str'>"
  | list _ => "<class 'list'>"
  | int _ => "<class 'int'>"
  | bool _ => "<class 'bool'>"
  | null => "<class 'NoneType'>"

theorem quotedEach_eq_map (values : List RawValue) : quotedEach values = values.map quoted := by
  induction values with
  | nil => rfl
  | cons value values ih => simp [quotedEach, ih]

end RawValue

end RequestPlan
