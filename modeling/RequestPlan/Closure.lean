import RequestPlan.Entity

/-!
# Closures

The closure of a request holds the root entity and every entity that a requested relation chain
reached, each under an alias of its own and under the path of relation names that leads to it.

* `Path`, `Member`, `Closure`: the entities in a plan;
* `Closure.ofMembers`: the closure of a list that starts with the root;
* `Closure.member?`, `Closure.related?`: look-up by path, and along a relation;
* `Closure.height`: the length of the longest path;
* `Closure.descent_induction`: induction along relations.
-/

namespace RequestPlan

/-- The names of the relations that lead from the root to an entity. -/
abbrev Path := List String

/-- An entity in a plan, under its own alias. -/
structure Member where
  tableAlias : String
  entity : Entity
  path : Path
  deriving DecidableEq

/-- The root and the entities joined to it, in join order. -/
structure Closure where
  root : Member
  joined : List Member
  root_path : root.path = []
  deriving DecidableEq

namespace Closure

/-- All members, the root first. -/
def members (closure : Closure) : List Member :=
  closure.root :: closure.joined

/-- The closure with the given members, the first of which has to be the root. -/
def ofMembers : List Member → Except Error Closure
  | [] => .error (.rootlessClosure [])
  | root :: joined =>
    if h : root.path = [] then .ok ⟨root, joined, h⟩
    else .error (.rootlessClosure ((root :: joined).map Member.path))

/-- Whether an entity is joined to the root. -/
def isActive (closure : Closure) : Bool :=
  !closure.joined.isEmpty

/-- The first member with the given path. -/
def member? (closure : Closure) (path : Path) : Option Member :=
  closure.members.find? fun member => member.path = path

/-- The member that a relation of the given member leads to, if it was joined. -/
def related? (closure : Closure) (member : Member) (name : String) : Option Member :=
  if (member.entity.relation? name).isSome then closure.member? (member.path ++ [name]) else none

/-- The length of the longest path. -/
def height (closure : Closure) : Nat :=
  (closure.members.map fun member => member.path.length).foldr max 0

theorem mem_of_member?_eq_some {closure : Closure} {path : Path} {member : Member}
    (h : closure.member? path = some member) : member ∈ closure.members :=
  List.mem_of_find?_eq_some h

theorem path_of_member?_eq_some {closure : Closure} {path : Path} {member : Member}
    (h : closure.member? path = some member) : member.path = path := by
  simpa using List.find?_some h

/-- The root is the member with the empty path. -/
theorem member?_nil (closure : Closure) : closure.member? [] = some closure.root := by
  simp [member?, members, closure.root_path]

theorem length_path_le_height {closure : Closure} {member : Member}
    (h : member ∈ closure.members) : member.path.length ≤ closure.height := by
  unfold height
  generalize closure.members = members at h
  induction members with
  | nil => cases h
  | cons first rest ih =>
    simp only [List.map_cons, List.foldr_cons]
    rcases List.mem_cons.1 h with rfl | h
    · exact Nat.le_max_left ..
    · exact Nat.le_trans (ih h) (Nat.le_max_right ..)

theorem member?_of_related?_eq_some {closure : Closure} {member next : Member} {name : String}
    (h : closure.related? member name = some next) :
    closure.member? (member.path ++ [name]) = some next := by
  simp only [related?] at h
  split at h
  · exact h
  · cases h

theorem path_of_related?_eq_some {closure : Closure} {member next : Member} {name : String}
    (h : closure.related? member name = some next) : next.path = member.path ++ [name] :=
  path_of_member?_eq_some (member?_of_related?_eq_some h)

/-- A relation leads to a member of the closure with a path longer by one name. -/
theorem length_path_of_related?_eq_some {closure : Closure} {member next : Member} {name : String}
    (h : closure.related? member name = some next) :
    next.path.length = member.path.length + 1 ∧ next ∈ closure.members := by
  refine ⟨?_, mem_of_member?_eq_some (member?_of_related?_eq_some h)⟩
  rw [path_of_related?_eq_some h, List.length_append, List.length_singleton]

/-- What holds of a member once it holds of those that its relations lead to holds of every member:
each relation brings the path closer to the height of the closure. -/
theorem descent_induction (closure : Closure) {motive : Member → Prop}
    (step : ∀ member, (∀ name next, closure.related? member name = some next → motive next) →
      motive member) (member : Member) : motive member := by
  induction hn : closure.height - member.path.length using Nat.strongRecOn generalizing member with
  | _ n ih =>
    refine step member fun name next hr => ?_
    obtain ⟨hlength, hmem⟩ := length_path_of_related?_eq_some hr
    have hheight := length_path_le_height hmem
    exact ih _ (by omega) next rfl

end Closure

end RequestPlan
