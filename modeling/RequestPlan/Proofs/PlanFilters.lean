import RequestPlan.Proofs.CompiledPlan

/-!
# The filters of a plan

The filters of a plan are put together parameter by parameter, first those of the namespaced ones
and then those of the general ones. As all general filters combine in one way, the list falls apart
into the filters that must hold and those of which one has to.

* `QueryPlan.GathersFilters`: a plan with the filters that its parameters contribute;
* `QueryPlan.filters_eq_append`: how connectives split a list of filters;
* `QueryPlan.filters_of_compile`: the filters of every compiled plan.
-/

namespace RequestPlan

namespace QueryPlan

/-- The entries of a class, in request order. -/
def entriesOf (v : Vocabulary) (entity : Entity) (parameters : KeyedList RawValue)
    (parameterClass : ParameterClass) : List (String × RawValue) :=
  parameters.entries.filter fun entry => v.classOf entity.tag entry.1 = parameterClass

/-- How the general filters of a plan combine: with joins, one match anywhere is enough. -/
def generalConnective (plan : QueryPlan) : Connective :=
  if plan.joins = [] then .and else .or

/-- The filters of a plan are those that its parameters contribute, the namespaced ones first and
each class in request order. -/
def GathersFilters (plan : QueryPlan) (v : Vocabulary) (entity : Entity) (closure : Closure)
    (parameters : KeyedList RawValue) : Prop :=
  ∃ namespaced general : List (List Filter),
    plan.filters = namespaced.flatten ++ general.flatten ∧
    List.Forall₂ (fun entry => Filter.OfNamespaced v closure entry.1 entry.2)
      (entriesOf v entity parameters .namespaced) namespaced ∧
    List.Forall₂ (fun entry => Filter.OfGeneral v closure plan.generalConnective entry.1 entry.2)
      (entriesOf v entity parameters .general) general

theorem filter_connective {filters : List Filter} {connective : Connective}
    (h : ∀ f ∈ filters, f.connective = connective) (wanted : Connective) :
    filters.filter (fun f => f.connective = wanted) =
      if connective = wanted then filters else [] := by
  split
  · next heq => exact List.filter_eq_self.2 fun f hf => by simp [h f hf, heq]
  · next hne => exact List.filter_eq_nil_iff.2 fun f hf => by simp [h f hf, hne]

/-- The filters split by connective if those of the second part share theirs. -/
theorem filters_eq_append {plan : QueryPlan} {first second : List Filter} {connective : Connective}
    (heq : plan.filters = first ++ second) (hfirst : ∀ f ∈ first, f.connective = .and)
    (hsecond : ∀ f ∈ second, f.connective = connective) :
    plan.filters = plan.andFilters ++ plan.orFilters := by
  -- One test keeps all of the first part and the other one nothing. Of the second part either test
  -- keeps all or nothing, so that no filter has to change places.
  rw [andFilters, orFilters, heq, List.filter_append, List.filter_append,
    filter_connective hfirst, filter_connective hfirst, filter_connective hsecond,
    filter_connective hsecond]
  cases connective <;> simp

variable {schema : Schema} {root : Candidate} {parameters : KeyedList RawValue} {v : Vocabulary}
  {plan : QueryPlan} {entity : Entity} {graph : JoinGraph}

namespace Stages

theorem generalConnective_eq (h : plan.Stages schema root parameters v entity graph) :
    Filter.generalConnective graph.closure = plan.generalConnective := by
  have hnil : graph.closure.joined = [] ↔ plan.joins = [] := by
    rw [h.joins, ← List.length_eq_zero_iff, ← List.length_eq_zero_iff, h.followsSchema.length_joins]
  by_cases hjoins : plan.joins = [] <;>
    simp [Filter.generalConnective, QueryPlan.generalConnective, Closure.isActive, hnil, hjoins]

/-- Each parameter of either class contributed a list of filters of its own. -/
theorem gathersFilters (h : plan.Stages schema root parameters v entity graph) :
    plan.GathersFilters v entity graph.closure parameters := by
  obtain ⟨first, second, hfirst, hsecond, heq⟩ := h.filters
  obtain ⟨namespaced, rfl, hnamespaced⟩ := flatten_mapM_eq_ok_iff.1 hfirst
  obtain ⟨general, rfl, hgeneral⟩ := flatten_mapM_eq_ok_iff.1 hsecond
  refine ⟨namespaced, general, heq, ?_, ?_⟩
  · -- What a key strips to depends on its class, so the class goes along with each entry.
    have hclass : ∀ entry ∈ entriesOf v entity parameters .namespaced,
        v.classOf graph.closure.root.entity.tag entry.1 = .namespaced := by
      intro entry he
      exact h.classOf_of_mem_namespaced he
    exact ((List.forall₂_and_left _ _).2 ⟨hclass, hnamespaced⟩).imp fun entry filters hf =>
      Filter.ofNamespaced_spec hf.1 hf.2
  · rw [← h.generalConnective_eq]
    exact hgeneral.imp fun entry filters hf =>
      Filter.ofGeneral_spec h.followsSchema.aliases_nodup hf

end Stages

/-- **The filters of a compiled plan, parameter by parameter.** -/
theorem filters_of_compile (h : compile schema root parameters v = .ok plan) :
    plan.filters = plan.andFilters ++ plan.orFilters ∧
      ∃ entity graph, schema.root root = .ok entity ∧
        JoinGraph.build schema entity (requestedChains v entity parameters) = .ok graph ∧
        plan.joins = graph.joins ∧ plan.GathersFilters v entity graph.closure parameters := by
  obtain ⟨entity, graph, hs⟩ := compile_eq_ok_iff.1 h
  obtain ⟨namespaced, general, heq, hnamespaced, hgeneral⟩ := hs.gathersFilters
  have hands : ∀ f ∈ namespaced.flatten, f.connective = .and := by
    intro f hf
    obtain ⟨entry, -, filters, hentry, hf⟩ := exists_item_of_mem_flatten hnamespaced hf
    exact hentry.connective f hf
  have hshared : ∀ f ∈ general.flatten, f.connective = plan.generalConnective := by
    intro f hf
    obtain ⟨entry, -, filters, hentry, hf⟩ := exists_item_of_mem_flatten hgeneral hf
    exact hentry.connective f hf
  exact ⟨filters_eq_append heq hands hshared, entity, graph, hs.found, hs.built, hs.joins,
    hs.gathersFilters⟩

theorem filters_forest :
    compile Forest.schema (.other (.text "Node")) Forest.parameters .conventional =
        .ok Forest.plan ∧
      Forest.plan.filters = Forest.plan.andFilters ++ Forest.plan.orFilters ∧
      ∃ entity graph, Forest.schema.root (.other (.text "Node")) = .ok entity ∧
        JoinGraph.build Forest.schema entity
          (requestedChains .conventional entity Forest.parameters) = .ok graph ∧
        Forest.plan.joins = graph.joins ∧
        Forest.plan.GathersFilters .conventional entity graph.closure Forest.parameters :=
  ⟨Forest.compile_parameters, filters_of_compile Forest.compile_parameters⟩

end QueryPlan

end RequestPlan
