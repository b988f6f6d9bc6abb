import RequestPlan.Proofs.PlanFilters

/-!
# Requests with the same outcome

A compilation reads a request in two ways only. It looks the four control keys up, and it goes
through the parameters that filter, each class by itself. Whatever else a request holds and however
its parameters are mixed, none of it shows in the outcome, be it a plan or a failure.

* `Filter.ofRequest`: the filters of both classes;
* `QueryPlan.ReadsAlike`, `QueryPlan.compile_congr`: requests that all stages read alike;
* `QueryPlan.Agree`: requests with the same control values and the same parameters that filter;
* `QueryPlan.compile_eq_of_agree`: such requests have the same outcome.
-/

namespace RequestPlan

/-- The filters of a request, those of the namespaced parameters first. -/
def Filter.ofRequest (v : Vocabulary) (closure : Closure) (request : Request) :
    Except Error (List Filter) := do
  let namespaced ← allNamespaced v closure request.namespaced
  let general ← allGeneral v closure request.general
  return namespaced ++ general

/-! ## What the stages read -/

namespace RowOrder

variable {v : Vocabulary} {closure : Closure} {control other : KeyedList RawValue}

theorem checkConflict_congr (h : ∀ key ∈ v.controlKeys, control.get? key = other.get? key) :
    checkConflict v control = checkConflict v other := by
  have horder : v.orderKey ∈ v.controlKeys := by simp [Keywords.controlKeys]
  have hrandom : v.randomKey ∈ v.controlKeys := by simp [Keywords.controlKeys]
  rw [checkConflict, checkConflict, h _ horder, h _ hrandom]

/-- An order depends on the values of the control keys. -/
theorem ofControl_congr (h : ∀ key ∈ v.controlKeys, control.get? key = other.get? key) :
    ofControl v closure control = ofControl v closure other := by
  have horder : v.orderKey ∈ v.controlKeys := by simp [Keywords.controlKeys]
  have hdirection : v.directionKey ∈ v.controlKeys := by simp [Keywords.controlKeys]
  have hrandom : v.randomKey ∈ v.controlKeys := by simp [Keywords.controlKeys]
  simp only [ofControl, direction, checkConflict_congr h, KeyedList.contains_eq_isSome,
    h _ horder, h _ hdirection, h _ hrandom]

end RowOrder

namespace QueryPlan

variable {schema : Schema} {root : Candidate} {parameters others : KeyedList RawValue}
  {v : Vocabulary} {entity : Entity}

theorem ofRequest_classify (closure : Closure) :
    Filter.ofRequest v closure (Request.classify v entity.tag parameters) = (do
      let namespaced ← (entriesOf v entity parameters .namespaced).mapM fun entry =>
        Filter.ofNamespaced v closure entry.1 entry.2
      let general ← (entriesOf v entity parameters .general).mapM fun entry =>
        Filter.ofGeneral v closure entry.1 entry.2
      return namespaced.flatten ++ general.flatten) := by
  simp only [Filter.ofRequest, Filter.allNamespaced, Filter.allGeneral, bind_map_left]
  rfl

theorem compile_eq_bind :
    compile schema root parameters v = (do
      let entity ← schema.root root
      let request := Request.classify v entity.tag parameters
      RowOrder.checkConflict v request.control
      let graph ← JoinGraph.build schema entity (requestedChains v entity parameters)
      let filters ← Filter.ofRequest v graph.closure request
      let order ← RowOrder.ofControl v graph.closure request.control
      return {
        rootEntity := entity.name
        rootAlias := graph.closure.root.tableAlias
        joins := graph.joins
        filters
        order
        eagerLoads := graph.eagerLoads
        eagerLoadTree := graph.eagerLoadTree
        projections := if graph.joins = [] then [] else projectionsOf graph.closure.root }) := by
  simp only [compile, Filter.ofRequest, requestedChains, bind_assoc, pure_bind]

/-- Two requests with the same control values, and with the same filters wherever the first one has
a join graph. -/
structure ReadsAlike (schema : Schema) (v : Vocabulary) (entity : Entity)
    (parameters others : KeyedList RawValue) : Prop where
  control : ∀ key ∈ v.controlKeys, parameters.get? key = others.get? key
  filters : ∀ graph,
    JoinGraph.build schema entity (requestedChains v entity parameters) = .ok graph →
      Filter.ofRequest v graph.closure (Request.classify v entity.tag parameters) =
        Filter.ofRequest v graph.closure (Request.classify v entity.tag others)

/-- Every stage goes the same way for two requests that are read alike. -/
theorem compile_congr
    (h : ∀ entity, schema.root root = .ok entity → ReadsAlike schema v entity parameters others) :
    compile schema root parameters v = compile schema root others v := by
  rw [compile_eq_bind, compile_eq_bind]
  refine bind_congr_ok fun entity hentity => ?_
  obtain ⟨hcontrol, hfilters⟩ := h entity hentity
  have hclassified : ∀ key ∈ v.controlKeys,
      (Request.classify v entity.tag parameters).control.get? key =
        (Request.classify v entity.tag others).control.get? key := by
    intro key hkey
    rw [Request.get?_control hkey, Request.get?_control hkey, hcontrol key hkey]
  have hchains : requestedChains v entity parameters = requestedChains v entity others := by
    rw [requestedChains, requestedChains, hclassified _ (by simp [Keywords.controlKeys])]
  dsimp only
  rw [RowOrder.checkConflict_congr hclassified, ← hchains]
  refine bind_congr_ok fun _ _ => bind_congr_ok fun graph hgraph => ?_
  rw [hfilters graph hgraph, RowOrder.ofControl_congr hclassified]

/-! ## Requests that agree -/

/-- Two requests that give the control keys the same values, and have the same parameters of the
other two classes, each class in the same order. Other parameters that look like control parameters
are left open, and so is how the classes are mixed. -/
structure Agree (v : Vocabulary) (entity : Entity) (parameters others : KeyedList RawValue) :
    Prop where
  control : ∀ key ∈ v.controlKeys, parameters.get? key = others.get? key
  namespaced : entriesOf v entity parameters .namespaced = entriesOf v entity others .namespaced
  general : entriesOf v entity parameters .general = entriesOf v entity others .general

theorem Agree.ofRequest_eq (h : Agree v entity parameters others) (closure : Closure) :
    Filter.ofRequest v closure (Request.classify v entity.tag parameters) =
      Filter.ofRequest v closure (Request.classify v entity.tag others) := by
  rw [ofRequest_classify, ofRequest_classify, h.namespaced, h.general]

/-- **Requests that agree have the same outcome**, the same plan or the same failure. -/
theorem compile_eq_of_agree
    (h : ∀ entity, schema.root root = .ok entity → Agree v entity parameters others) :
    compile schema root parameters v = compile schema root others v :=
  compile_congr fun entity hentity =>
    { control := (h entity hentity).control
      filters := fun graph _ => (h entity hentity).ofRequest_eq graph.closure }

end QueryPlan

/-- The request for nodes with its classes mixed in another way, and with parameters that only look
like control parameters. -/
def Forest.mixedParameters : KeyedList RawValue :=
  .ofList
    [("_page", .int 3), ("node_kind", .text "tree"), ("_withOut", .text "keeper"),
     ("_orderBy", .text "keeper_name, height, kind"), ("name", .list [.text "ash", .text "yew~"]),
     ("_", .list [.null, .bool true]), ("node_keeper_nodes_name", .text "oak"),
     ("parent_parent_kind", .int 7), ("height", .text "10"), ("kind", .list []),
     ("_order", .text "DESC"), ("_with", .text chains)]

theorem QueryPlan.compile_eq_of_agree_forest :
    (∀ entity, Forest.schema.root (.other (.text "Node")) = .ok entity →
        Agree .conventional entity Forest.parameters Forest.mixedParameters) ∧
      compile Forest.schema (.other (.text "Node")) Forest.parameters .conventional =
        compile Forest.schema (.other (.text "Node")) Forest.mixedParameters .conventional := by
  have hroot : Forest.schema.root (.other (.text "Node")) = .ok Forest.node := by decide +kernel
  have hagree : ∀ entity, Forest.schema.root (.other (.text "Node")) = .ok entity →
      Agree .conventional entity Forest.parameters Forest.mixedParameters := by
    intro entity hentity
    obtain rfl : Forest.node = entity := by simpa [hroot] using hentity
    exact ⟨by decide +kernel, by decide +kernel, by decide +kernel⟩
  exact ⟨hagree, compile_eq_of_agree hagree⟩

end RequestPlan
