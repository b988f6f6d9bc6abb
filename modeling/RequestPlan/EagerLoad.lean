import RequestPlan.Closure

/-!
# Eager loads

The relations to fetch along with the root form a tree: below each relation stand the relations that
continue it.

* `EagerLoad`: the trees;
* `EagerLoad.ofMembers`: the tree of the members of a plan.
-/

namespace RequestPlan

/-- A relation to fetch, under the alias of its target, and what to fetch below it. -/
inductive EagerLoad where
  | node (relation tableAlias : String) (children : List EagerLoad)

namespace EagerLoad

mutual

/-- Equality of trees is decidable. -/
def decEq : (s t : EagerLoad) → Decidable (s = t)
  | node r a ss, node r' a' ts =>
    match decEqLists ss ts with
    | isTrue h => decidable_of_iff (r = r' ∧ a = a') (by simp [h])
    | isFalse h => isFalse fun heq => h (by injection heq)

/-- Equality of lists of trees is decidable. -/
def decEqLists : (ss ts : List EagerLoad) → Decidable (ss = ts)
  | [], [] => isTrue rfl
  | [], _ :: _ | _ :: _, [] => isFalse (by simp)
  | s :: ss, t :: ts =>
    match decEq s t, decEqLists ss ts with
    | isTrue h, isTrue hs => isTrue (by rw [h, hs])
    | isFalse h, _ => isFalse fun heq => h (by injection heq)
    | _, isFalse hs => isFalse fun heq => hs (by injection heq)

end

instance : DecidableEq EagerLoad := decEq

end EagerLoad

/-- The name of the relation that leads from one path to another, if a single one does. -/
def Path.step? (parent path : Path) : Option String :=
  path.getLast?.filter fun name => path = parent ++ [name]

namespace EagerLoad

/-- The trees, at most `depth` levels high, of the members whose path continues the given one. -/
def levels (members : List Member) : Nat → Path → List EagerLoad
  | 0, _ => []
  | depth + 1, parent =>
    members.filterMap fun member =>
      (Path.step? parent member.path).map fun name =>
        node name member.tableAlias (levels members depth member.path)

/-- The trees of all members of a closure. No path is longer than the closure is high. -/
def ofClosure (closure : Closure) : List EagerLoad :=
  levels closure.members closure.height []

/-- The trees of the relations that continue this one. -/
def children : EagerLoad → List EagerLoad
  | node _ _ children => children

end EagerLoad

theorem Path.step?_eq_some_iff {parent path : Path} {name : String} :
    Path.step? parent path = some name ↔ path = parent ++ [name] := by
  simp only [Path.step?, Option.filter_eq_some_iff, decide_eq_true_eq]
  exact ⟨fun h => h.2, fun h => ⟨by simp [h], h⟩⟩

end RequestPlan
