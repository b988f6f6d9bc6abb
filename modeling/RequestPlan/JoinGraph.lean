import RequestPlan.AliasPool
import RequestPlan.EagerLoad
import RequestPlan.Join
import RequestPlan.Text.Listing

/-!
# Join graphs

The relation chains of a request are followed one after the other from the root. A relation that no
earlier chain reached is joined under a fresh alias; a name that is no relation ends its chain.

* `Step`, `Walk`: what has been joined so far, and the aliases in use;
* `Walk.attach`, `Walk.follow`, `Walk.followAll`: one relation, one chain, all chains;
* `JoinGraph`, `JoinGraph.build`: the result, with its closure, joins and eager loads.
-/

namespace RequestPlan

/-- A member together with the join that attaches it. -/
structure Step where
  member : Member
  join : Join
  deriving DecidableEq

/-- The root, what has been attached to it, and the aliases in use. -/
structure Walk where
  root : Member
  root_path : root.path = []
  steps : List Step
  pool : AliasPool

namespace Walk

/-- The walk that has not left its root, whose table occurs once. -/
def start (entity : Entity) : Walk where
  root := ⟨entity.tableName, entity, []⟩
  root_path := rfl
  steps := []
  pool := ⟨.ofList [(entity.tableName, 1)], [entity.tableName]⟩

/-- The root and the members attached to it. -/
def closure (walk : Walk) : Closure :=
  ⟨walk.root, walk.steps.map Step.member, walk.root_path⟩

/-- Joins the target of a relation of the given member under a fresh alias. -/
def attach (schema : Schema) (walk : Walk) (source : Member) (relation : Relation) :
    Except Error (Walk × Member) := do
  let target ← schema.target relation
  let (tableAlias, pool) := walk.pool.allocate target.tableName
  let join ← Join.along source relation target tableAlias
  let member : Member := ⟨tableAlias, target, source.path ++ [relation.name]⟩
  return ({ walk with steps := walk.steps ++ [⟨member, join⟩], pool }, member)

/-- The member that a relation of the given member leads to, attached unless it was before. -/
def advance (schema : Schema) (walk : Walk) (source : Member) (relation : Relation) :
    Except Error (Walk × Member) :=
  match walk.closure.member? (source.path ++ [relation.name]) with
  | some member => .ok (walk, member)
  | none => walk.attach schema source relation

/-- Follows a chain of names up to the first one that is no relation. -/
def follow (schema : Schema) (walk : Walk) (member : Member) :
    List String → Except Error (Walk × Member)
  | [] => .ok (walk, member)
  | name :: names =>
    match member.entity.relation? name with
    | none => .ok (walk, member)
    | some relation => do
      let (walk, next) ← walk.advance schema member relation
      walk.follow schema next names

/-- Follows each chain from the root. Beside the walk stand the paths that the chains reached, those
of chains without a first relation left out. -/
def followAll (schema : Schema) (walk : Walk) :
    List (List String) → Except Error (Walk × List Path)
  | [] => .ok (walk, [])
  | chain :: chains => do
    let (walk, last) ← walk.follow schema walk.root chain
    let (walk, reached) ← walk.followAll schema chains
    return (walk, if last.path = [] then reached else last.path :: reached)

end Walk

/-- Everything that follows from the requested relation chains. -/
structure JoinGraph where
  closure : Closure
  joins : List Join
  eagerLoads : List String
  eagerLoadTree : List EagerLoad
  deriving DecidableEq

namespace JoinGraph

/-- The chains of names in a comma-separated list of chains. -/
def chainsOf (value : String) : List (List String) :=
  (Text.entries value).map Text.chainNames

/-- The join graph of a finished walk and of the paths that its chains reached. The eager loads are
the chains of these paths without repetitions. -/
def ofWalk (walk : Walk) (reached : List Path) : JoinGraph where
  closure := walk.closure
  joins := walk.steps.map Step.join
  -- Removing repetitions is documented to keep the order and the first one of equal chains, and it
  -- is relied on for nothing else.
  eagerLoads := (reached.map Text.chain).eraseDups
  eagerLoadTree := EagerLoad.ofClosure walk.closure

/-- The join graph of the requested chains, none if nothing is requested. -/
def build (schema : Schema) (root : Entity) (requested : Option String) :
    Except Error JoinGraph := do
  let (walk, reached) ← (Walk.start root).followAll schema (chainsOf (requested.getD ""))
  return ofWalk walk reached

/-- One join for each joined member, in the same order. -/
theorem length_joins_ofWalk (walk : Walk) (reached : List Path) :
    (ofWalk walk reached).joins.length = (ofWalk walk reached).closure.joined.length := by
  simp [ofWalk, Walk.closure]

theorem chainsOf_append_comma (a b : String) :
    chainsOf (a ++ "," ++ b) = chainsOf a ++ chainsOf b := by
  simp [chainsOf, Text.entries_append_comma]

end JoinGraph

end RequestPlan
