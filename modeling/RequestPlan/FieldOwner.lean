import RequestPlan.Closure
import RequestPlan.Text.Search

/-!
# Field owners

A field name in a request stands for a field of a member of the closure. A member owns its
searchable fields; a name that it does not own may lead along one of its relations, which the name
either is or starts with, followed by an underscore and a name for the related member. Shorter
relation names are tried first, and one that leads nowhere does not end the search.

* `FieldOwner`: a member and a field that it owns;
* `descents`: the ways to read a name as a relation and a remaining name;
* `Closure.resolve?`: the owner that a name stands for, seen from a member;
* `Closure.owners`: all members that own the name itself.
-/

namespace RequestPlan

/-- A member and a field of its entity. -/
structure FieldOwner where
  member : Member
  field : String
  deriving DecidableEq

/-- The ways to read a name as the name of a relation and a name for its target: as both at once,
and as two names with an underscore between them, the shortest first. -/
def descents (field : String) : List (String × String) :=
  (field, field) ::
    (Text.cuts '_' field.toList).map fun (before, after) =>
      (String.ofList before, String.ofList after)

namespace Closure

/-- The owner that a name stands for, seen from the given member. Every descent lengthens the path,
which cannot outgrow the closure. -/
def resolve? (closure : Closure) (member : Member) (field : String) : Option FieldOwner :=
  if member.entity.isSearchable field then some ⟨member, field⟩
  else
    (descents field).findSome? fun (name, rest) =>
      match _h : closure.related? member name with
      | some next => closure.resolve? next rest
      | none => none
termination_by closure.height - member.path.length
decreasing_by
  have h := length_path_of_related?_eq_some _h
  have := length_path_le_height h.2
  omega

/-- All members that own the name itself, the root first. -/
def owners (closure : Closure) (field : String) : List FieldOwner :=
  (closure.members.filter fun member => member.entity.isSearchable field).map fun member =>
    ⟨member, field⟩

theorem resolve?_eq (closure : Closure) (member : Member) (field : String) :
    closure.resolve? member field =
      if member.entity.isSearchable field then some ⟨member, field⟩
      else
        (descents field).findSome? fun descent =>
          (closure.related? member descent.1).bind fun next => closure.resolve? next descent.2 := by
  rw [resolve?]
  split
  · rfl
  · congr 1
    funext ⟨name, rest⟩
    dsimp only
    split <;> simp_all

/-- A member owns its searchable fields, whatever is joined. -/
theorem resolve?_of_isSearchable {closure : Closure} {member : Member} {field : String}
    (h : member.entity.isSearchable field = true) :
    closure.resolve? member field = some ⟨member, field⟩ := by
  rw [resolve?_eq, if_pos h]

end Closure

theorem mem_descents {field name rest : String} :
    (name, rest) ∈ descents field ↔
      (name = field ∧ rest = field) ∨ name ++ "_" ++ rest = field := by
  have cut : (name, rest) ∈ (Text.cuts '_' field.toList).map
      (fun (before, after) => (String.ofList before, String.ofList after)) ↔
        name ++ "_" ++ rest = field := by
    simp only [List.mem_map, Prod.exists, Prod.mk.injEq]
    constructor
    · rintro ⟨before, after, h, rfl, rfl⟩
      rw [Text.mem_cuts] at h
      rw [← String.toList_inj]
      simpa using h
    · rintro rfl
      refine ⟨name.toList, rest.toList, ?_, by simp, by simp⟩
      simp [Text.mem_cuts]
  simp only [descents, List.mem_cons, cut, Prod.mk.injEq]

end RequestPlan
