import RequestPlan.Proofs.ClosureExtension
import RequestPlan.Proofs.GraphExtension
import RequestPlan.Proofs.PlanFilters

/-!
# More relations in a request

Asking for more relation chains leaves all other parameters of a request as they were. Each of them
then makes at least as many filters as before, and each name to order by that stood for a field
still does, though both may now be about other members.

* `RowOrder.names`, `RowOrder.clauses_of_ofControl`: the names to order by, and their clauses;
* `QueryPlan.filteringEntries`, `QueryPlan.FiltersBy`: the filters of a plan, parameter by
  parameter;
* `QueryPlan.LosesNothing`: a plan that filters and orders by all that another one does;
* `QueryPlan.losesNothing_of_compile`: the plans of a request with fewer and with more chains.
-/

namespace RequestPlan

/-! ## The names to order by -/

namespace RowOrder

/-- The clauses of an order; a random one has none. -/
def clauses : RowOrder → List OrderClause
  | random => []
  | byFields clauses _ => clauses

/-- The names that control parameters ask to order by, none in a random order. -/
def names (v : Vocabulary) (control : KeyedList RawValue) : List String :=
  if control.contains v.randomKey then []
  else (control.get? v.orderKey).elim [] fun fields => Text.entries fields.joined

/-- The alias and the field that a name stands for. -/
def fieldOf? (closure : Closure) (name : String) : Option (String × String) :=
  (closure.resolve? closure.root name).map fun owner => (owner.member.tableAlias, owner.field)

variable {v : Vocabulary} {closure longer : Closure} {control parameters : KeyedList RawValue}
  {short long : RawValue} {more : String}

theorem clauses_ofClauses? (clauses : List OrderClause) :
    (ofClauses? clauses).elim [] RowOrder.clauses = clauses := by
  unfold ofClauses?
  split
  · next h => rw [h]; rfl
  · rfl

/-- There is a clause for each name that stands for a field, in the order of the names. -/
theorem clauses_of_ofControl {order : Option RowOrder}
    (h : ofControl v closure control = .ok order) :
    (order.elim [] clauses).map (fun clause => (clause.tableAlias, clause.field)) =
      (names v control).filterMap (fieldOf? closure) := by
  obtain ⟨_, -, h⟩ := bind_eq_ok_iff.1 h
  unfold names
  split at h
  · next hrandom =>
    obtain rfl : some random = order := by simpa using h
    rw [if_pos hrandom]
    rfl
  · next hrandom =>
    rw [if_neg hrandom]
    split at h
    · next hnone =>
      obtain rfl : none = order := by simpa using h
      rw [hnone]
      rfl
    · next fields hsome =>
      obtain ⟨direction, -, h⟩ := bind_eq_ok_iff.1 h
      obtain rfl := pure_eq_ok_iff.1 h
      rw [hsome, Option.elim_some, clauses_ofClauses?, clausesOf, List.map_filterMap]
      simp only [Option.map_map]
      rfl

theorem names_control (tag : String) :
    names v (Request.classify v tag parameters).control = names v parameters := by
  have hrandom : v.randomKey ∈ v.controlKeys := by simp [Keywords.controlKeys]
  have horder : v.orderKey ∈ v.controlKeys := by simp [Keywords.controlKeys]
  simp only [names, KeyedList.contains_eq_isSome, Request.get?_control hrandom,
    Request.get?_control horder]

/-- More chains leave the names as they were. If a vocabulary has the chains and the names in one
parameter, names are added at the end. -/
theorem names_insert_isPrefix (hjoined : long.joined = short.joined ++ "," ++ more) :
    names v (parameters.insert v.relationsKey short) <+:
      names v (parameters.insert v.relationsKey long) := by
  have hcontains : (parameters.insert v.relationsKey short).contains v.randomKey =
      (parameters.insert v.relationsKey long).contains v.randomKey := by
    simp only [KeyedList.contains_eq_isSome, KeyedList.get?_insert]
    split <;> rfl
  unfold names
  rw [hcontains]
  split
  · exact List.prefix_refl _
  · simp only [KeyedList.get?_insert]
    split
    · rw [Option.elim_some, Option.elim_some, hjoined, Text.entries_append_comma]
      exact List.prefix_append _ _
    · exact List.prefix_refl _

theorem isSome_fieldOf?_mono (h : closure.members <+: longer.members) {name : String}
    (hs : (fieldOf? closure name).isSome) : (fieldOf? longer name).isSome := by
  rw [fieldOf?, Option.isSome_map] at hs ⊢
  exact Closure.isSome_resolve?_mono h hs

/-- More names, of which each one stands for a field if it did before, have no fewer fields. -/
theorem length_filterMap_fieldOf?_mono (h : closure.members <+: longer.members)
    {first second : List String} (hn : first <+: second) :
    (first.filterMap (fieldOf? closure)).length ≤ (second.filterMap (fieldOf? longer)).length := by
  rw [List.length_filterMap_eq_countP, List.length_filterMap_eq_countP]
  calc first.countP (fun name => (fieldOf? closure name).isSome)
    _ ≤ first.countP (fun name => (fieldOf? longer name).isSome) :=
      List.countP_mono_left fun _ _ => isSome_fieldOf?_mono h
    _ ≤ second.countP (fun name => (fieldOf? longer name).isSome) := hn.sublist.countP_le

end RowOrder

/-! ## The filters parameter by parameter -/

namespace QueryPlan

/-- The clauses of the order of a plan, none if it has none. -/
def orderClauses (plan : QueryPlan) : List OrderClause :=
  plan.order.elim [] RowOrder.clauses

/-- The parameters that filter, in the order of their filters. -/
def filteringEntries (v : Vocabulary) (entity : Entity) (parameters : KeyedList RawValue) :
    List (String × RawValue) :=
  entriesOf v entity parameters .namespaced ++ entriesOf v entity parameters .general

/-- The filters of a plan are those that each parameter makes, one parameter after the other. -/
structure FiltersBy (plan : QueryPlan) (v : Vocabulary) (closure : Closure)
    (entries : List (String × RawValue)) (parts : List (List Filter)) : Prop where
  filters : plan.filters = parts.flatten
  each : List.Forall₂ (fun entry part => Filter.ofParameter v closure entry.1 entry.2 = .ok part)
    entries parts

variable {schema : Schema} {root : Candidate} {parameters : KeyedList RawValue} {v : Vocabulary}
  {plan plan' : QueryPlan} {entity : Entity} {graph longer : JoinGraph} {short long : RawValue}
  {more : String}

theorem filteringEntries_insert (value : RawValue) :
    filteringEntries v entity (parameters.insert v.relationsKey value) =
      filteringEntries v entity parameters := by
  have hcontrol : v.classOf entity.tag v.relationsKey = .control :=
    Vocabulary.classOf_controlKey (by simp [Keywords.controlKeys]) entity.tag
  have hclass : ∀ parameterClass, parameterClass ≠ .control →
      entriesOf v entity (parameters.insert v.relationsKey value) parameterClass =
        entriesOf v entity parameters parameterClass := by
    intro parameterClass hne
    refine KeyedList.filter_insertEntry (p := fun key => v.classOf entity.tag key = parameterClass)
      ?_ value parameters.entries
    simp [hcontrol, hne.symm]
  rw [filteringEntries, hclass _ (by simp), hclass _ (by simp)]
  rfl

theorem requestedChains_insert (value : RawValue) :
    requestedChains v entity (parameters.insert v.relationsKey value) = some value.joined := by
  have hcontrol : v.relationsKey ∈ v.controlKeys := by simp [Keywords.controlKeys]
  rw [requestedChains, Request.get?_control hcontrol, KeyedList.get?_insert, if_pos rfl]
  rfl

/-- Each parameter makes no fewer filters in the second plan than in the first one. -/
theorem FiltersBy.length_mono {entries : List (String × RawValue)} {closure longer : Closure}
    {parts parts' : List (List Filter)} (h : plan.FiltersBy v closure entries parts)
    (h' : plan'.FiltersBy v longer entries parts') (hm : closure.members <+: longer.members) :
    List.Forall₂ (fun part part' => part.length ≤ part'.length) parts parts' := by
  obtain ⟨-, heach⟩ := h
  obtain ⟨-, heach'⟩ := h'
  induction heach generalizing parts' with
  | nil =>
    cases heach'
    exact .nil
  | cons hpart _ ih =>
    cases heach' with
    | cons hpart' hrest =>
      exact .cons (Filter.length_mono_of_ofParameter hm hpart hpart') (ih hrest)

theorem classOf_of_mem_entriesOf {parameterClass : ParameterClass} {entry : String × RawValue}
    (h : entry ∈ entriesOf v entity parameters parameterClass) :
    v.classOf entity.tag entry.1 = parameterClass := by
  simpa using (List.mem_filter.1 h).2

/-- The class of a parameter says which of the two kinds of filters it makes. -/
theorem forall₂_ofNamespaced_iff {closure : Closure} {parts : List (List Filter)}
    (hroot : closure.root.entity = entity) :
    List.Forall₂ (fun entry part => Filter.ofParameter v closure entry.1 entry.2 = .ok part)
        (entriesOf v entity parameters .namespaced) parts ↔
      List.Forall₂ (fun entry part => Filter.ofNamespaced v closure entry.1 entry.2 = .ok part)
        (entriesOf v entity parameters .namespaced) parts := by
  refine forall₂_iff_of_mem fun entry hentry part => ?_
  rw [Filter.ofParameter, hroot, classOf_of_mem_entriesOf hentry]

theorem forall₂_ofGeneral_iff {closure : Closure} {parts : List (List Filter)}
    (hroot : closure.root.entity = entity) :
    List.Forall₂ (fun entry part => Filter.ofParameter v closure entry.1 entry.2 = .ok part)
        (entriesOf v entity parameters .general) parts ↔
      List.Forall₂ (fun entry part => Filter.ofGeneral v closure entry.1 entry.2 = .ok part)
        (entriesOf v entity parameters .general) parts := by
  refine forall₂_iff_of_mem fun entry hentry part => ?_
  rw [Filter.ofParameter, hroot, classOf_of_mem_entriesOf hentry]

namespace Stages

theorem exists_filtersBy (h : plan.Stages schema root parameters v entity graph) :
    ∃ parts, plan.FiltersBy v graph.closure (filteringEntries v entity parameters) parts := by
  obtain ⟨first, second, hfirst, hsecond, heq⟩ := h.filters
  obtain ⟨namespaced, rfl, hnamespaced⟩ := flatten_mapM_eq_ok_iff.1 hfirst
  obtain ⟨general, rfl, hgeneral⟩ := flatten_mapM_eq_ok_iff.1 hsecond
  refine ⟨namespaced ++ general, by rw [heq, List.flatten_append], ?_⟩
  have hroot : graph.closure.root.entity = entity := by rw [h.followsSchema.root_eq]
  exact List.rel_append ((forall₂_ofNamespaced_iff hroot).2 hnamespaced)
    ((forall₂_ofGeneral_iff hroot).2 hgeneral)

theorem map_orderClauses (h : plan.Stages schema root parameters v entity graph) :
    plan.orderClauses.map (fun clause => (clause.tableAlias, clause.field)) =
      (RowOrder.names v parameters).filterMap (RowOrder.fieldOf? graph.closure) := by
  rw [orderClauses, RowOrder.clauses_of_ofControl h.order, RowOrder.names_control]

end Stages

/-- Longer parts make a longer whole. -/
theorem length_flatten_mono {α : Type} {parts parts' : List (List α)}
    (h : List.Forall₂ (fun part part' => part.length ≤ part'.length) parts parts') :
    parts.flatten.length ≤ parts'.flatten.length := by
  induction h with
  | nil => exact Nat.le_refl _
  | cons hpart _ ih =>
    rw [List.flatten_cons, List.flatten_cons, List.length_append, List.length_append]
    omega

/-- The second plan filters and orders by everything that the first one does, if not always on the
same members. -/
structure LosesNothing (v : Vocabulary) (entries : List (String × RawValue))
    (names names' : List String) (closure longer : Closure) (plan plan' : QueryPlan) : Prop where
  /-- Each parameter makes at least as many filters. -/
  filters : ∃ parts parts', plan.FiltersBy v closure entries parts ∧
    plan'.FiltersBy v longer entries parts' ∧
    List.Forall₂ (fun part part' => part.length ≤ part'.length) parts parts'
  length_filters : plan.filters.length ≤ plan'.filters.length
  /-- Each name that stood for a field stands for one. -/
  resolves : ∀ name, (closure.resolve? closure.root name).isSome →
    (longer.resolve? longer.root name).isSome
  names_isPrefix : names <+: names'
  order : plan.orderClauses.map (fun clause => (clause.tableAlias, clause.field)) =
    names.filterMap (RowOrder.fieldOf? closure)
  order' : plan'.orderClauses.map (fun clause => (clause.tableAlias, clause.field)) =
    names'.filterMap (RowOrder.fieldOf? longer)
  length_order : plan.orderClauses.length ≤ plan'.orderClauses.length

theorem losesNothing_of_stages (hjoined : long.joined = short.joined ++ "," ++ more)
    (h : plan.Stages schema root (parameters.insert v.relationsKey short) v entity graph)
    (h' : plan'.Stages schema root (parameters.insert v.relationsKey long) v entity longer)
    (hm : graph.closure.members <+: longer.closure.members) :
    LosesNothing v (filteringEntries v entity parameters)
      (RowOrder.names v (parameters.insert v.relationsKey short))
      (RowOrder.names v (parameters.insert v.relationsKey long))
      graph.closure longer.closure plan plan' := by
  obtain ⟨parts, hparts⟩ := h.exists_filtersBy
  obtain ⟨parts', hparts'⟩ := h'.exists_filtersBy
  rw [filteringEntries_insert] at hparts hparts'
  have hmono := hparts.length_mono hparts' hm
  have hnames : RowOrder.names v (parameters.insert v.relationsKey short) <+:
      RowOrder.names v (parameters.insert v.relationsKey long) :=
    RowOrder.names_insert_isPrefix hjoined
  have horder := h.map_orderClauses
  have horder' := h'.map_orderClauses
  refine ⟨⟨parts, parts', hparts, hparts', hmono⟩, ?_, fun name => Closure.isSome_resolve?_mono hm,
    hnames, horder, horder', ?_⟩
  · rw [hparts.filters, hparts'.filters]
    exact length_flatten_mono hmono
  · have hlength := RowOrder.length_filterMap_fieldOf?_mono hm hnames
    rwa [← horder, ← horder', List.length_map, List.length_map] at hlength

/-- **A request that asks for more relation chains loses no filter and no field to order by.** -/
theorem losesNothing_of_compile (hjoined : long.joined = short.joined ++ "," ++ more)
    (h : compile schema root (parameters.insert v.relationsKey short) v = .ok plan)
    (h' : compile schema root (parameters.insert v.relationsKey long) v = .ok plan') :
    ∃ entity graph longer, schema.root root = .ok entity ∧
      JoinGraph.build schema entity (some short.joined) = .ok graph ∧
      JoinGraph.build schema entity (some long.joined) = .ok longer ∧
      LosesNothing v (filteringEntries v entity parameters)
        (RowOrder.names v (parameters.insert v.relationsKey short))
        (RowOrder.names v (parameters.insert v.relationsKey long))
        graph.closure longer.closure plan plan' := by
  obtain ⟨entity, graph, hs⟩ := compile_eq_ok_iff.1 h
  obtain ⟨entity', longer, hs'⟩ := compile_eq_ok_iff.1 h'
  obtain rfl : entity = entity' := by simpa [hs.found] using hs'.found
  have hgraph := hs.built
  have hlonger := hs'.built
  rw [requestedChains_insert] at hgraph hlonger
  obtain ⟨graph', hgraph', hextended⟩ := JoinGraph.exists_build_append (hjoined ▸ hlonger)
  obtain rfl : graph = graph' := by simpa [hgraph] using hgraph'
  exact ⟨entity, graph, longer, hs.found, hgraph, hlonger,
    losesNothing_of_stages hjoined hs hs' hextended.members⟩

end QueryPlan

/-- The plan of the request for nodes, with only the first of its chains. -/
def Forest.plainPlan : QueryPlan where
  rootEntity := "Node"
  rootAlias := "nodes"
  joins := graph.joins.take 2
  filters :=
    [⟨"nodes", "kind", .equals (.raw (.text "tree")), .and⟩,
     ⟨"nodes", "name", .like "yew%", .or⟩,
     ⟨"nodes_1", "name", .like "yew%", .or⟩,
     ⟨"nodes_2", "name", .like "yew%", .or⟩,
     ⟨"nodes_2", "kind", .equals (.raw (.int 7)), .or⟩]
  order := some (.byFields [⟨"nodes", "kind", .descending⟩] (by simp))
  eagerLoads := ["parent.parent"]
  eagerLoadTree := [.node "parent" "nodes_1" [.node "parent" "nodes_2" []]]
  projections :=
    [.column "nodes" "kind" "nodes_kind", .column "nodes" "name" "nodes_name", .allColumns "nodes"]

/-- The request for nodes with the given chains. -/
def Forest.asking (chains : String) : KeyedList RawValue :=
  parameters.insert Vocabulary.conventional.relationsKey (.text chains)

theorem QueryPlan.losesNothing_forest :
    Forest.chains = "parent.parent" ++ "," ++ " keeper.nodes ,parent.unknown.parent" ∧
      compile Forest.schema (.other (.text "Node")) (Forest.asking "parent.parent")
        .conventional = .ok Forest.plainPlan ∧
      compile Forest.schema (.other (.text "Node")) (Forest.asking Forest.chains)
        .conventional = .ok Forest.plan ∧
      ∃ entity graph longer, Forest.schema.root (.other (.text "Node")) = .ok entity ∧
        JoinGraph.build Forest.schema entity (some "parent.parent") = .ok graph ∧
        JoinGraph.build Forest.schema entity (some Forest.chains) = .ok longer ∧
        LosesNothing .conventional (filteringEntries .conventional entity Forest.parameters)
          (RowOrder.names .conventional (Forest.asking "parent.parent"))
          (RowOrder.names .conventional (Forest.asking Forest.chains))
          graph.closure longer.closure Forest.plainPlan Forest.plan := by
  have hchains : Forest.chains =
      "parent.parent" ++ "," ++ " keeper.nodes ,parent.unknown.parent" := by decide +kernel
  have hjoined : (RawValue.text Forest.chains).joined =
      (RawValue.text "parent.parent").joined ++ "," ++ " keeper.nodes ,parent.unknown.parent" :=
    hchains
  have hplain : compile Forest.schema (.other (.text "Node")) (Forest.asking "parent.parent")
      .conventional = .ok Forest.plainPlan := by decide +kernel
  have hplan : compile Forest.schema (.other (.text "Node")) (Forest.asking Forest.chains)
      .conventional = .ok Forest.plan := by decide +kernel
  have hloses := losesNothing_of_compile hjoined hplain hplan
  exact ⟨hchains, hplain, hplan, hloses⟩

end RequestPlan
