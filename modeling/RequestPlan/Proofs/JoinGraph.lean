import RequestPlan.Proofs.Walk

/-!
# Joins and members of a graph

A join graph is the record of a walk. Its members and joins stand side by side, each pair along a
relation of a member that came before, and the path of a member spells out how the schema leads to
it.

* `JoinGraph.FollowsSchema`: what the schema prescribes for members and joins;
* `JoinGraph.build_eq_ok_iff`: a graph that was built records a walk through all chains;
* `JoinGraph.followsSchema_of_build`: every graph that was built follows the schema.
-/

namespace RequestPlan

namespace JoinGraph

/-- Members and joins as the relations of the schema prescribe them. -/
structure FollowsSchema (schema : Schema) (root : Entity) (graph : JoinGraph) : Prop where
  root_eq : graph.closure.root = ⟨root.tableName, root, []⟩
  paths_nodup : (graph.closure.members.map Member.path).Nodup
  aliases_nodup : (graph.closure.members.map Member.tableAlias).Nodup
  length_joins : graph.joins.length = graph.closure.joined.length
  /-- A joined member and the join in its place follow a relation of an earlier member. -/
  attached : ∀ i member join, graph.closure.joined[i]? = some member →
    graph.joins[i]? = some join →
      ∃ source ∈ graph.closure.members.take (i + 1), ∃ relation,
        Step.IsAlong schema source relation ⟨member, join⟩
  /-- A path finds its only member, whose entity is the one that the path leads to. -/
  found : ∀ path member, graph.closure.member? path = some member →
    member ∈ graph.closure.members ∧ member.path = path ∧
      (∀ other ∈ graph.closure.members, other.path = path → other = member) ∧
      schema.follow? root path = some member.entity

variable {schema : Schema} {root : Entity} {requested : Option String} {graph : JoinGraph}
  {walk : Walk} {reached : List Path}

theorem build_eq_ok_iff :
    build schema root requested = .ok graph ↔
      ∃ walk reached, (Walk.start root).followAll schema (chainsOf (requested.getD "")) =
        .ok (walk, reached) ∧ ofWalk walk reached = graph := by
  simp only [build, bind_eq_ok_iff, pure_eq_ok_iff, Prod.exists]

/-- A graph that was built records a walk. -/
theorem exists_sound_of_build (h : build schema root requested = .ok graph) :
    ∃ walk reached, walk.Sound schema root ∧ ofWalk walk reached = graph := by
  obtain ⟨walk, reached, hall, rfl⟩ := build_eq_ok_iff.1 h
  have hstart := Walk.sound_start schema root
  exact ⟨walk, reached, hstart.of_reaches (Walk.followAll_spec hstart hall).1, rfl⟩

/-- The step in a place of a walk follows a relation of the root or of a step before that place. -/
theorem exists_isAlong_of_getElem? (hw : walk.Sound schema root) {i : ℕ} {step : Step}
    (h : walk.steps[i]? = some step) :
    ∃ source ∈ walk.closure.members.take (i + 1), ∃ relation,
      step.IsAlong schema source relation := by
  obtain ⟨hi, hstep⟩ := List.getElem?_eq_some_iff.1 h
  have hsplit : walk.steps = walk.steps.take i ++ step :: walk.steps.drop (i + 1) := by
    rw [← hstep, ← List.drop_eq_getElem_cons hi, List.take_append_drop]
  obtain ⟨source, hs, hrelation⟩ := hw.along _ _ _ hsplit
  refine ⟨source, ?_, hrelation⟩
  rwa [Walk.members_closure, List.take_succ_cons, ← List.map_take]

theorem followsSchema_ofWalk (hw : walk.Sound schema root) (reached : List Path) :
    (ofWalk walk reached).FollowsSchema schema root where
  root_eq := hw.root
  paths_nodup := hw.paths_nodup
  aliases_nodup := hw.aliases_nodup
  length_joins := length_joins_ofWalk walk reached
  attached i member join hm hj := by
    have hm : (walk.steps.map Step.member)[i]? = some member := hm
    have hj : (walk.steps.map Step.join)[i]? = some join := hj
    rw [List.getElem?_map, Option.map_eq_some_iff] at hm hj
    obtain ⟨step, hstep, rfl⟩ := hm
    obtain ⟨other, hother, rfl⟩ := hj
    obtain rfl : step = other := by simpa [hstep] using hother
    exact exists_isAlong_of_getElem? hw hstep
  found path member h := by
    have hm := Closure.mem_of_member?_eq_some h
    have hp := Closure.path_of_member?_eq_some h
    refine ⟨hm, hp, fun other ho hpath => hw.eq_of_path_eq ho hm (hpath.trans hp.symm), ?_⟩
    rw [← hp]
    exact hw.leads member hm

/-- A joined member follows a relation of a member, and so does its join. -/
theorem FollowsSchema.exists_isAlong {member : Member} (h : graph.FollowsSchema schema root)
    (hm : member ∈ graph.closure.joined) :
    ∃ source ∈ graph.closure.members, ∃ relation, ∃ join ∈ graph.joins,
      Step.IsAlong schema source relation ⟨member, join⟩ := by
  obtain ⟨i, hi⟩ := List.mem_iff_getElem?.1 hm
  obtain ⟨hlt, -⟩ := List.getElem?_eq_some_iff.1 hi
  have hj := List.getElem?_eq_getElem (h.length_joins ▸ hlt)
  obtain ⟨source, hsource, relation, halong⟩ := h.attached i member _ hi hj
  exact ⟨source, List.mem_of_mem_take hsource, relation, _, List.getElem_mem _, halong⟩

/-- **Members and joins of every graph that was built are those that the schema prescribes.** -/
theorem followsSchema_of_build (h : build schema root requested = .ok graph) :
    graph.FollowsSchema schema root := by
  obtain ⟨walk, reached, hw, rfl⟩ := exists_sound_of_build h
  exact followsSchema_ofWalk hw reached

end JoinGraph

/-! ## A schema that leads back to itself -/

/-- Nodes with a parent and children among themselves, and a keeper who keeps many of them. -/
def Forest.node : Entity where
  name := "Node"
  tableName := "nodes"
  primaryKey := "id"
  searchable := .ofList ["name", "kind"]
  relations := Relation.byName
    [⟨"parent", .toOne, "parent_id", "Node", none⟩,
     ⟨"children", .toMany, "parent_id", "Node", none⟩,
     ⟨"keeper", .toOne, "keeper_code", "Keeper", some "code"⟩]
  tag := "node"
  relations_named := by decide +kernel

/-- Keepers, whom nodes refer to by a code. -/
def Forest.keeper : Entity where
  name := "Keeper"
  tableName := "keepers"
  primaryKey := "id"
  searchable := .ofList ["name"]
  relations := Relation.byName [⟨"nodes", .toMany, "keeper_code", "Node", some "code"⟩]
  tag := "keeper"
  relations_named := by decide +kernel

/-- The schema of nodes and keepers. -/
def Forest.schema : Schema := .ofEntities [node, keeper]

/-- Chains that meet a table four times, share a beginning and break off. -/
def Forest.chains : String := "parent.parent, keeper.nodes ,parent.unknown.parent"

/-- The graph of those chains. -/
def Forest.graph : JoinGraph where
  closure :=
    { root := ⟨"nodes", node, []⟩
      joined :=
        [⟨"nodes_1", node, ["parent"]⟩, ⟨"nodes_2", node, ["parent", "parent"]⟩,
         ⟨"keepers", keeper, ["keeper"]⟩, ⟨"nodes_3", node, ["keeper", "nodes"]⟩]
      root_path := rfl }
  joins :=
    [⟨.left, "nodes", "parent_id", "nodes", "nodes_1", "id"⟩,
     ⟨.left, "nodes_1", "parent_id", "nodes", "nodes_2", "id"⟩,
     ⟨.left, "nodes", "keeper_code", "keepers", "keepers", "code"⟩,
     ⟨.right, "keepers", "code", "nodes", "nodes_3", "keeper_code"⟩]
  eagerLoads := ["parent.parent", "keeper.nodes", "parent"]
  eagerLoadTree :=
    [.node "parent" "nodes_1" [.node "parent" "nodes_2" []],
     .node "keeper" "keepers" [.node "nodes" "nodes_3" []]]

theorem Forest.build_chains :
    JoinGraph.build schema node (some chains) = .ok graph := by decide +kernel

theorem JoinGraph.followsSchema_forest :
    JoinGraph.build Forest.schema Forest.node (some Forest.chains) = .ok Forest.graph ∧
      Forest.graph.FollowsSchema Forest.schema Forest.node :=
  ⟨Forest.build_chains, followsSchema_of_build Forest.build_chains⟩

end RequestPlan
