import RequestPlan.QueryPlan
import RequestPlan.Proofs.FilterContributions
import RequestPlan.Proofs.JoinGraph

/-!
# Plans stay within their closure

Every part of a plan comes from one stage of its compilation, and all stages after the join graph
see the same closure. So the aliases of a plan are those of the closure, and a request can neither
filter nor order on anything but a searchable field of an entity that is in it.

* `QueryPlan.Stages`, `QueryPlan.compile_eq_ok_iff`: the stages of a compilation that succeeds;
* `QueryPlan.aliases`, `QueryPlan.Addresses`: the aliases of a plan, and the fields under them;
* `QueryPlan.StaysWithin`: what a plan may refer to;
* `QueryPlan.staysWithin_of_compile`: every compiled plan stays within the closure of its request.
-/

namespace RequestPlan

/-- The relation chains that a request asks for. -/
def requestedChains (v : Vocabulary) (entity : Entity) (parameters : KeyedList RawValue) :
    Option String :=
  ((Request.classify v entity.tag parameters).control.get? v.relationsKey).map RawValue.joined

namespace RowOrder

variable {v : Vocabulary} {closure : Closure} {control : KeyedList RawValue}
  {direction : OrderDirection} {fields : String} {clauses : List OrderClause}

theorem exists_clausesOf_of_ofControl {hne : clauses ≠ []}
    (h : ofControl v closure control = .ok (some (byFields clauses hne))) :
    ∃ direction fields, clauses = clausesOf closure direction fields := by
  obtain ⟨_, -, h⟩ := bind_eq_ok_iff.1 h
  split at h
  · simp at h
  · split at h
    · simp at h
    · next fields hfields =>
      obtain ⟨direction, -, h⟩ := bind_eq_ok_iff.1 h
      rw [pure_eq_ok_iff, ofClauses?] at h
      split at h
      · cases h
      · obtain rfl : clausesOf closure direction fields.joined = clauses := by simpa using h
        exact ⟨direction, _, rfl⟩

/-- A clause is on the field of the owner that a name of the list stands for. -/
theorem hasField_of_mem_clausesOf {clause : OrderClause}
    (h : clause ∈ clausesOf closure direction fields) :
    closure.HasField clause.tableAlias clause.field := by
  obtain ⟨name, -, hname⟩ := List.mem_filterMap.1 h
  obtain ⟨owner, howner, rfl⟩ := Option.map_eq_some_iff.1 hname
  exact (Closure.owns_of_resolve?_root howner).hasField

end RowOrder

/-! ## The stages of a compilation -/

/-- What each stage of a compilation made, for the root entity and the join graph. -/
structure QueryPlan.Stages (schema : Schema) (root : Candidate) (parameters : KeyedList RawValue)
    (v : Vocabulary) (entity : Entity) (graph : JoinGraph) (plan : QueryPlan) : Prop where
  found : schema.root root = .ok entity
  noConflict : RowOrder.checkConflict v (Request.classify v entity.tag parameters).control = .ok ()
  built : JoinGraph.build schema entity (requestedChains v entity parameters) = .ok graph
  filters : ∃ namespaced general,
    Filter.allNamespaced v graph.closure (Request.classify v entity.tag parameters).namespaced =
        .ok namespaced ∧
      Filter.allGeneral v graph.closure (Request.classify v entity.tag parameters).general =
        .ok general ∧
      plan.filters = namespaced ++ general
  order : RowOrder.ofControl v graph.closure (Request.classify v entity.tag parameters).control =
    .ok plan.order
  rootEntity : plan.rootEntity = entity.name
  rootAlias : plan.rootAlias = graph.closure.root.tableAlias
  joins : plan.joins = graph.joins
  eagerLoads : plan.eagerLoads = graph.eagerLoads
  eagerLoadTree : plan.eagerLoadTree = graph.eagerLoadTree
  projections : plan.projections =
    if graph.joins = [] then [] else projectionsOf graph.closure.root

section Compilation

variable {schema : Schema} {root : Candidate} {parameters : KeyedList RawValue} {v : Vocabulary}
  {plan : QueryPlan}

theorem QueryPlan.compile_eq_ok_iff :
    QueryPlan.compile schema root parameters v = .ok plan ↔
      ∃ entity graph, plan.Stages schema root parameters v entity graph := by
  simp only [QueryPlan.compile, bind_eq_ok_iff, pure_eq_ok_iff]
  constructor
  · rintro ⟨entity, hroot, _, hconflict, graph, hgraph, namespaced, hnamespaced, general, hgeneral,
      order, horder, rfl⟩
    exact ⟨entity, graph, hroot, hconflict, hgraph, ⟨_, _, hnamespaced, hgeneral, rfl⟩, horder,
      rfl, rfl, rfl, rfl, rfl, rfl⟩
  · rintro ⟨entity, graph, hs⟩
    obtain ⟨namespaced, general, hnamespaced, hgeneral, hfilters⟩ := hs.filters
    refine ⟨entity, hs.found, (), hs.noConflict, graph, hs.built, namespaced, hnamespaced, general,
      hgeneral, plan.order, hs.order, ?_⟩
    rw [← hs.rootEntity, ← hs.rootAlias, ← hfilters, ← hs.eagerLoads, ← hs.eagerLoadTree,
      ← hs.projections, ← hs.joins]

namespace QueryPlan.Stages

variable {entity : Entity} {graph : JoinGraph}

theorem followsSchema (h : plan.Stages schema root parameters v entity graph) :
    graph.FollowsSchema schema entity := by
  obtain ⟨walk, reached, hw, rfl⟩ := JoinGraph.exists_sound_of_build h.built
  exact JoinGraph.followsSchema_ofWalk hw reached

theorem classOf_of_mem_namespaced {entry : String × RawValue}
    (h : plan.Stages schema root parameters v entity graph)
    (he : entry ∈ (Request.classify v entity.tag parameters).namespaced.entries) :
    v.classOf graph.closure.root.entity.tag entry.1 = .namespaced := by
  rw [h.followsSchema.root_eq]
  simpa using (KeyedList.mem_entries_filterKeys.1 he).2

/-- Every filter is on a field that a member has. -/
theorem hasField_of_mem_filters (h : plan.Stages schema root parameters v entity graph)
    {f : Filter} (hf : f ∈ plan.filters) : graph.closure.HasField f.tableAlias f.field := by
  obtain ⟨namespaced, general, hnamespaced, hgeneral, hfilters⟩ := h.filters
  rw [hfilters, List.mem_append] at hf
  rcases hf with hf | hf
  · obtain ⟨contributions, rfl, hall⟩ := flatten_mapM_eq_ok_iff.1 hnamespaced
    obtain ⟨entry, he, filters, hcontribution, hf⟩ := exists_item_of_mem_flatten hall hf
    exact Filter.hasField_of_mem_ofNamespaced (h.classOf_of_mem_namespaced he) hcontribution hf
  · obtain ⟨contributions, rfl, hall⟩ := flatten_mapM_eq_ok_iff.1 hgeneral
    obtain ⟨entry, -, filters, hcontribution, hf⟩ := exists_item_of_mem_flatten hall hf
    exact Filter.hasField_of_mem_ofGeneral hcontribution hf

/-- Every clause of an order is on a field that a member has. -/
theorem hasField_of_mem_order (h : plan.Stages schema root parameters v entity graph)
    {clauses : List OrderClause} {hne : clauses ≠ []}
    (horder : plan.order = some (.byFields clauses hne)) {clause : OrderClause}
    (hc : clause ∈ clauses) : graph.closure.HasField clause.tableAlias clause.field := by
  obtain ⟨direction, fields, rfl⟩ := RowOrder.exists_clausesOf_of_ofControl (horder ▸ h.order)
  exact RowOrder.hasField_of_mem_clausesOf hc

end QueryPlan.Stages

end Compilation

/-! ## What a plan may refer to -/

namespace QueryPlan

/-- The alias of the root and those of the joined tables. -/
def aliases (plan : QueryPlan) : List String :=
  plan.rootAlias :: plan.joins.map Join.targetAlias

/-- An alias of the plan is that of a single member, which has the field among its searchable
ones. -/
structure Addresses (plan : QueryPlan) (closure : Closure) (tableAlias field : String) : Prop where
  inUse : tableAlias ∈ plan.aliases
  owned : ∃ member ∈ closure.members, member.tableAlias = tableAlias ∧
    (∀ other ∈ closure.members, other.tableAlias = tableAlias → other = member) ∧
    member.entity.isSearchable field = true

end QueryPlan

/-- The projections of the searchable fields of a member, each under a label of its own. -/
structure Projection.ShowFields (root : Member) (projections : List Projection) : Prop where
  ascending : (projections.map Projection.field).Pairwise (· < ·)
  field : ∀ field, field ∈ projections.map Projection.field ↔
    root.entity.isSearchable field = true
  labelled : ∀ projection ∈ projections, projection.tableAlias = root.tableAlias ∧
    projection.label? = some (root.tableAlias ++ "_" ++ projection.field)
  labels_nodup : (projections.map Projection.label?).Nodup

/-- A plan refers to the members of a closure only, each under its own alias. -/
structure QueryPlan.StaysWithin (plan : QueryPlan) (closure : Closure) : Prop where
  rootAlias : plan.rootAlias = closure.root.tableAlias
  aliases_nodup : plan.aliases.Nodup
  /-- Joined members and joins stand side by side. -/
  joined : plan.joins.map (fun join => (join.targetAlias, join.targetTable)) =
    closure.joined.map fun member => (member.tableAlias, member.entity.tableName)
  /-- A join starts from a table that is in the plan before it. -/
  source : ∀ i join, plan.joins[i]? = some join → join.sourceAlias = plan.rootAlias ∨
    ∃ earlier ∈ plan.joins.take i, join.sourceAlias = earlier.targetAlias
  filters : ∀ f ∈ plan.filters, plan.Addresses closure f.tableAlias f.field
  order : ∀ clauses hne, plan.order = some (.byFields clauses hne) →
    ∀ clause ∈ clauses, plan.Addresses closure clause.tableAlias clause.field
  projections_eq_nil_iff : plan.projections = [] ↔ plan.joins = []
  projections : plan.joins ≠ [] → ∃ shown, Projection.ShowFields closure.root shown ∧
    plan.projections = shown ++ [.allColumns plan.rootAlias]

theorem Projection.showFields_labelled (root : Member) :
    Projection.ShowFields root (root.entity.searchable.toList.map (labelled root)) where
  ascending := by
    rw [List.map_map]
    simpa [Function.comp_def, labelled, field] using root.entity.searchable.ascending
  field name := by
    rw [List.map_map]
    simp [Function.comp_def, labelled, field, Entity.isSearchable, NameSet.mem_toList]
  labelled projection hp := by
    obtain ⟨name, -, rfl⟩ := List.mem_map.1 hp
    exact ⟨rfl, rfl⟩
  labels_nodup := by
    rw [List.map_map]
    refine root.entity.searchable.nodup_toList.map fun name other heq => ?_
    simpa [labelled, label?] using heq

namespace JoinGraph.FollowsSchema

variable {schema : Schema} {root : Entity} {graph : JoinGraph}

theorem map_target (h : graph.FollowsSchema schema root) :
    graph.joins.map (fun join => (join.targetAlias, join.targetTable)) =
      graph.closure.joined.map fun member => (member.tableAlias, member.entity.tableName) := by
  refine List.ext_getElem (by simp [h.length_joins]) fun i hj hm => ?_
  rw [List.length_map] at hj hm
  obtain ⟨source, -, relation, halong⟩ :=
    h.attached i _ _ (List.getElem?_eq_getElem hm) (List.getElem?_eq_getElem hj)
  rw [List.getElem_map, List.getElem_map, halong.join.targetAlias, halong.join.targetTable]

theorem map_targetAlias (h : graph.FollowsSchema schema root) :
    graph.joins.map Join.targetAlias = graph.closure.joined.map Member.tableAlias := by
  simpa [Function.comp_def] using congrArg (List.map Prod.fst) h.map_target

theorem source (h : graph.FollowsSchema schema root) {i : ℕ} {join : Join}
    (hj : graph.joins[i]? = some join) : join.sourceAlias = graph.closure.root.tableAlias ∨
      ∃ earlier ∈ graph.joins.take i, join.sourceAlias = earlier.targetAlias := by
  obtain ⟨hi, -⟩ := List.getElem?_eq_some_iff.1 hj
  have hm := List.getElem?_eq_getElem (h.length_joins ▸ hi)
  obtain ⟨source, hs, relation, halong⟩ := h.attached i _ _ hm hj
  rw [halong.join.sourceAlias]
  rw [Closure.members, List.take_succ_cons, List.mem_cons] at hs
  rcases hs with rfl | hs
  · exact .inl rfl
  · -- Members joined before are the targets of the joins before, by their aliases.
    right
    have halias := List.mem_map_of_mem (f := Member.tableAlias) hs
    rw [List.map_take, ← h.map_targetAlias, ← List.map_take] at halias
    obtain ⟨earlier, hearlier, heq⟩ := List.mem_map.1 halias
    exact ⟨earlier, hearlier, heq.symm⟩

end JoinGraph.FollowsSchema

namespace QueryPlan

variable {schema : Schema} {root : Candidate} {parameters : KeyedList RawValue} {v : Vocabulary}
  {plan : QueryPlan} {entity : Entity} {graph : JoinGraph}

namespace Stages

theorem aliases_eq (h : plan.Stages schema root parameters v entity graph) :
    plan.aliases = graph.closure.members.map Member.tableAlias := by
  rw [aliases, h.rootAlias, h.joins, h.followsSchema.map_targetAlias]
  rfl

/-- A field that a member has is addressed by its alias, which no other member goes by. -/
theorem addresses_of_hasField (h : plan.Stages schema root parameters v entity graph)
    {tableAlias field : String} (hf : graph.closure.HasField tableAlias field) :
    plan.Addresses graph.closure tableAlias field := by
  obtain ⟨member, hm, rfl, hfield⟩ := hf
  refine ⟨?_, member, hm, rfl, fun other hother heq => ?_, hfield⟩
  · rw [h.aliases_eq]
    exact List.mem_map_of_mem hm
  · exact List.inj_on_of_nodup_map h.followsSchema.aliases_nodup hother hm heq

theorem staysWithin (h : plan.Stages schema root parameters v entity graph) :
    plan.StaysWithin graph.closure where
  rootAlias := h.rootAlias
  aliases_nodup := by
    rw [h.aliases_eq]
    exact h.followsSchema.aliases_nodup
  joined := by
    rw [h.joins]
    exact h.followsSchema.map_target
  source i join hj := by
    rw [h.joins] at hj ⊢
    rw [h.rootAlias]
    exact h.followsSchema.source hj
  filters _ hf := h.addresses_of_hasField (h.hasField_of_mem_filters hf)
  order _ _ horder _ hc := h.addresses_of_hasField (h.hasField_of_mem_order horder hc)
  projections_eq_nil_iff := by
    rw [h.projections, h.joins]
    by_cases hnil : graph.joins = [] <;> simp [hnil, projectionsOf]
  projections hne := by
    rw [h.joins] at hne
    refine ⟨_, Projection.showFields_labelled _, ?_⟩
    rw [h.projections, if_neg hne, projectionsOf, h.rootAlias]

end Stages

/-- **A compiled plan stays within the closure of its request.** -/
theorem staysWithin_of_compile (h : compile schema root parameters v = .ok plan) :
    ∃ entity graph, schema.root root = .ok entity ∧
      JoinGraph.build schema entity (requestedChains v entity parameters) = .ok graph ∧
      plan.joins = graph.joins ∧ graph.FollowsSchema schema entity ∧
      plan.StaysWithin graph.closure := by
  obtain ⟨entity, graph, hs⟩ := compile_eq_ok_iff.1 h
  exact ⟨entity, graph, hs.found, hs.built, hs.joins, hs.followsSchema, hs.staysWithin⟩

end QueryPlan

/-! ## A request for nodes -/

/-- A request that filters and orders nodes by fields from all over their forest. -/
def Forest.parameters : KeyedList RawValue :=
  .ofList
    [("_with", .text chains), ("name", .list [.text "ash", .text "yew~"]),
     ("node_kind", .text "tree"), ("parent_parent_kind", .int 7), ("_order", .text "DESC"),
     ("height", .text "10"), ("node_keeper_nodes_name", .text "oak"), ("kind", .list []),
     ("_orderBy", .text "keeper_name, height, kind")]

/-- The plan of that request. -/
def Forest.plan : QueryPlan where
  rootEntity := "Node"
  rootAlias := "nodes"
  joins := graph.joins
  filters :=
    [⟨"nodes", "kind", .equals (.raw (.text "tree")), .and⟩,
     ⟨"nodes_3", "name", .equals (.raw (.text "oak")), .and⟩,
     ⟨"nodes", "name", .like "yew%", .or⟩,
     ⟨"nodes_1", "name", .like "yew%", .or⟩,
     ⟨"nodes_2", "name", .like "yew%", .or⟩,
     ⟨"keepers", "name", .like "yew%", .or⟩,
     ⟨"nodes_3", "name", .like "yew%", .or⟩,
     ⟨"nodes_2", "kind", .equals (.raw (.int 7)), .or⟩]
  order := some (.byFields
    [⟨"keepers", "name", .descending⟩, ⟨"nodes", "kind", .descending⟩] (by simp))
  eagerLoads := graph.eagerLoads
  eagerLoadTree := graph.eagerLoadTree
  projections :=
    [.column "nodes" "kind" "nodes_kind", .column "nodes" "name" "nodes_name", .allColumns "nodes"]

theorem Forest.compile_parameters :
    QueryPlan.compile schema (.other (.text "Node")) parameters .conventional = .ok plan := by
  decide +kernel

theorem QueryPlan.staysWithin_forest :
    QueryPlan.compile Forest.schema (.other (.text "Node")) Forest.parameters .conventional =
        .ok Forest.plan ∧
      ∃ entity graph, Forest.schema.root (.other (.text "Node")) = .ok entity ∧
        JoinGraph.build Forest.schema entity
          (requestedChains .conventional entity Forest.parameters) = .ok graph ∧
        Forest.plan.joins = graph.joins ∧ graph.FollowsSchema Forest.schema entity ∧
        Forest.plan.StaysWithin graph.closure :=
  ⟨Forest.compile_parameters, staysWithin_of_compile Forest.compile_parameters⟩

end RequestPlan
