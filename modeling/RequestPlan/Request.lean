import RequestPlan.KeyedList
import RequestPlan.Text.Listing
import RequestPlan.Vocabulary

/-!
# Requests

A request is a keyed list of parameters of three classes: control parameters shape the plan,
namespaced ones filter a field of the root, general ones a field wherever it is found. A key belongs
to the first class that its beginning allows.

* `ParameterClass`, `Vocabulary.classOf`: the class of a key;
* `Request`, `Request.classify`: the parameters by class;
* `Vocabulary.fieldOf`: the field that a namespaced key addresses;
* `RawValue.joined`, `RawValue.latest`: the value of a repeated parameter, as a list or as the last
  one given.
-/

namespace RequestPlan

/-- The classes of parameters. -/
inductive ParameterClass where
  | control
  | namespaced
  | general
  deriving DecidableEq, Repr

namespace Vocabulary

/-- What a namespaced key starts with. -/
def lead (v : Vocabulary) (tag : String) : String :=
  tag ++ v.separator

/-- The class of a key in a request for the entity with the given namespace. -/
def classOf (v : Vocabulary) (tag key : String) : ParameterClass :=
  if Text.startsWith v.sigil key then .control
  else if Text.startsWith (v.lead tag) key then .namespaced
  else .general

/-- The field that a namespaced key addresses. -/
def fieldOf (v : Vocabulary) (tag key : String) : Except Error String :=
  match Text.after? (v.lead tag).toList key.toList with
  | some field => .ok (String.ofList field)
  | none => .error (.keyOutsideNamespace key (v.lead tag))

theorem classOf_eq_control_iff {v : Vocabulary} {tag key : String} :
    v.classOf tag key = .control ↔ Text.startsWith v.sigil key = true := by
  simp only [classOf]
  split
  · simp_all
  · split <;> simp_all

/-- The four control keys are control parameters for every namespace. -/
theorem classOf_controlKey {v : Vocabulary} {key : String} (h : key ∈ v.controlKeys)
    (tag : String) : v.classOf tag key = .control :=
  classOf_eq_control_iff.2 (v.startsWith_sigil key h)

/-- A namespaced key addresses a field. -/
theorem fieldOf_of_classOf_eq {v : Vocabulary} {tag key : String}
    (h : v.classOf tag key = .namespaced) :
    ∃ field, v.fieldOf tag key = .ok field ∧ v.lead tag ++ field = key := by
  have hlead : Text.startsWith (v.lead tag) key = true := by
    simp only [classOf] at h
    split at h
    · cases h
    · split at h
      · assumption
      · cases h
  obtain ⟨field, hfield⟩ := List.isPrefixOf_iff_prefix.1 hlead
  refine ⟨String.ofList field, ?_, ?_⟩
  · simp [fieldOf, Text.after?_eq_some_iff.2 hfield]
  · rw [← String.toList_inj]
    simpa using hfield

end Vocabulary

/-- The parameters of a request by class, each class in request order. -/
structure Request where
  control : KeyedList RawValue
  namespaced : KeyedList RawValue
  general : KeyedList RawValue
  deriving DecidableEq

/-- The parameters by class, in a request for the entity with the given namespace. -/
def Request.classify (v : Vocabulary) (tag : String) (parameters : KeyedList RawValue) :
    Request where
  control := parameters.filterKeys fun key => v.classOf tag key = .control
  namespaced := parameters.filterKeys fun key => v.classOf tag key = .namespaced
  general := parameters.filterKeys fun key => v.classOf tag key = .general

/-- The control parameters hold the values of the four control keys. -/
theorem Request.get?_control {v : Vocabulary} {key : String} (h : key ∈ v.controlKeys)
    (tag : String) (parameters : KeyedList RawValue) :
    (classify v tag parameters).control.get? key = parameters.get? key :=
  KeyedList.get?_filterKeys (decide_eq_true (v.classOf_controlKey h tag))

namespace RawValue

/-- The value as a single text; the values of a repeated parameter become a comma-separated list. -/
def joined : RawValue → String
  | list values => ",".intercalate (values.map shown)
  | value => value.shown

/-- The value that counts for a filter: the last one of a repeated parameter, and nothing if there
is none. -/
def latest : RawValue → RawValue
  | list values => values.getLast?.getD null
  | value => value

end RawValue

end RequestPlan
