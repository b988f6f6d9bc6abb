import RequestPlan.Proofs.PlanExtension

/-!
# Filter parameters on their own

The control parameters alone say which tables a plan joins and under which aliases, how it orders
and what it selects. The other parameters all see the same closure, whichever of them come along, so
that each of them makes the same filters in every company.

* `QueryPlan.Stages.withParameters`: a request with the same control parameters, and its plan;
* `QueryPlan.filteringEntries_filterKeys`, `QueryPlan.exists_filteringEntries_eq`: the parameters
  that filter, some of them left out;
* `QueryPlan.ActsAlone`: what a parameter is to the plan of its request;
* `QueryPlan.actsAlone_of_compile`: every parameter that is no control parameter acts alone.
-/

namespace RequestPlan

section Lists

variable {α : Type} {front back : List α} {item : α} {p : α → Bool}

theorem filter_eq_append_of_others (hitem : p item = false)
    (hothers : ∀ other ∈ front ++ back, p other = true) :
    (front ++ item :: back).filter p = front ++ back := by
  rw [List.filter_append, List.filter_cons_of_neg (by simp [hitem]), ← List.filter_append]
  exact List.filter_eq_self.2 hothers

theorem filter_eq_singleton_of_others (hitem : p item = true)
    (hothers : ∀ other ∈ front ++ back, p other = false) :
    (front ++ item :: back).filter p = [item] := by
  have hnone : ∀ part ⊆ front ++ back, part.filter p = [] := by
    intro part hpart
    refine List.filter_eq_nil_iff.2 fun other hother => ?_
    simp [hothers other (hpart hother)]
  rw [List.filter_append, List.filter_cons_of_pos hitem,
    hnone front (List.subset_append_left front back),
    hnone back (List.subset_append_right front back), List.nil_append]

end Lists

/-- The control parameters do not depend on which other parameters come along. -/
theorem Request.control_classify_filterKeys {v : Vocabulary} {tag : String} {p : String → Bool}
    (hp : ∀ key, v.classOf tag key = .control → p key = true) (parameters : KeyedList RawValue) :
    (classify v tag (parameters.filterKeys p)).control = (classify v tag parameters).control := by
  simp only [classify]
  apply KeyedList.filterKeys_filterKeys_of_imp
  intro key hkey
  exact hp key (by simpa using hkey)

namespace QueryPlan

variable {schema : Schema} {root : Candidate} {parameters others : KeyedList RawValue}
  {v : Vocabulary} {plan : QueryPlan} {entity : Entity} {graph : JoinGraph} {key : String}

/-! ## The parameters that filter -/

theorem filteringEntries_filterKeys (p : String → Bool) :
    filteringEntries v entity (parameters.filterKeys p) =
      (filteringEntries v entity parameters).filter fun entry => p entry.1 := by
  have hclass : ∀ parameterClass, entriesOf v entity (parameters.filterKeys p) parameterClass =
      (entriesOf v entity parameters parameterClass).filter fun entry => p entry.1 := by
    intro parameterClass
    rw [entriesOf, entriesOf, KeyedList.filterKeys, List.filter_comm]
  rw [filteringEntries, filteringEntries, hclass, hclass, List.filter_append]

theorem mem_filteringEntries_iff {entry : String × RawValue} :
    entry ∈ filteringEntries v entity parameters ↔
      entry ∈ parameters.entries ∧ v.classOf entity.tag entry.1 ≠ .control := by
  simp only [filteringEntries, entriesOf, List.mem_append, List.mem_filter, decide_eq_true_eq]
  cases v.classOf entity.tag entry.1 <;> simp

/-- No two parameters that filter have the same key. -/
theorem nodup_filteringEntries (v : Vocabulary) (entity : Entity)
    (parameters : KeyedList RawValue) :
    ((filteringEntries v entity parameters).map Prod.fst).Nodup := by
  have hclass : ∀ parameterClass,
      ((entriesOf v entity parameters parameterClass).map Prod.fst).Nodup := fun parameterClass =>
    parameters.nodup_keys.sublist (List.filter_sublist.map Prod.fst)
  rw [filteringEntries, List.map_append, List.nodup_append]
  refine ⟨hclass .namespaced, hclass .general, ?_⟩
  rintro _ hfirst _ hsecond rfl
  obtain ⟨entry, hentry, rfl⟩ := List.mem_map.1 hfirst
  obtain ⟨other, hother, heq⟩ := List.mem_map.1 hsecond
  have hgeneral := classOf_of_mem_entriesOf hother
  rw [heq, classOf_of_mem_entriesOf hentry] at hgeneral
  cases hgeneral

/-- A key that is no control key stands in one place among the parameters that filter. -/
theorem exists_filteringEntries_eq (hkey : key ∈ parameters.keys)
    (hclass : v.classOf entity.tag key ≠ .control) :
    ∃ front value back, filteringEntries v entity parameters = front ++ (key, value) :: back ∧
      ∀ entry ∈ front ++ back, entry.1 ≠ key := by
  obtain ⟨value, hvalue⟩ := KeyedList.mem_keys_iff.1 hkey
  have hmem : (key, value) ∈ filteringEntries v entity parameters :=
    mem_filteringEntries_iff.2 ⟨KeyedList.get?_eq_some_iff.1 hvalue, hclass⟩
  obtain ⟨front, back, heq⟩ := List.append_of_mem hmem
  refine ⟨front, value, back, heq, fun entry hentry hsame => ?_⟩
  have hnodup := nodup_filteringEntries v entity parameters
  rw [heq, List.map_append, List.map_cons, List.nodup_middle, ← List.map_append,
    List.nodup_cons] at hnodup
  exact hnodup.1 (List.mem_map.2 ⟨entry, hentry, hsame⟩)

/-! ## Requests with the same control parameters -/

/-- The filters of both classes are those that each parameter makes, one after the other. -/
theorem exists_filters_of_forall₂ {closure : Closure} {parts : List (List Filter)}
    (hroot : closure.root.entity = entity)
    (h : List.Forall₂ (fun entry part => Filter.ofParameter v closure entry.1 entry.2 = .ok part)
      (filteringEntries v entity parameters) parts) :
    ∃ namespaced general,
      Filter.allNamespaced v closure (Request.classify v entity.tag parameters).namespaced =
          .ok namespaced ∧
        Filter.allGeneral v closure (Request.classify v entity.tag parameters).general =
          .ok general ∧
        parts.flatten = namespaced ++ general := by
  obtain ⟨first, second, rfl, hfirst, hsecond⟩ := exists_append_of_forall₂ h
  refine ⟨first.flatten, second.flatten, ?_, ?_, List.flatten_append⟩
  · exact flatten_mapM_eq_ok_iff.2 ⟨first, rfl, (forall₂_ofNamespaced_iff hroot).1 hfirst⟩
  · exact flatten_mapM_eq_ok_iff.2 ⟨second, rfl, (forall₂_ofGeneral_iff hroot).1 hsecond⟩

/-- A request with the same control parameters has the same plan, but for the filters. -/
theorem Stages.withParameters (h : plan.Stages schema root parameters v entity graph)
    (hcontrol : (Request.classify v entity.tag others).control =
      (Request.classify v entity.tag parameters).control) {parts : List (List Filter)}
    (hparts : List.Forall₂
      (fun entry part => Filter.ofParameter v graph.closure entry.1 entry.2 = .ok part)
      (filteringEntries v entity others) parts) :
    ({ plan with filters := parts.flatten }).Stages schema root others v entity graph where
  found := h.found
  noConflict := hcontrol ▸ h.noConflict
  built := by
    rw [requestedChains, hcontrol]
    exact h.built
  filters := exists_filters_of_forall₂ (by rw [h.followsSchema.root_eq]) hparts
  order := hcontrol ▸ h.order
  rootEntity := h.rootEntity
  rootAlias := h.rootAlias
  joins := h.joins
  eagerLoads := h.eagerLoads
  eagerLoadTree := h.eagerLoadTree
  projections := h.projections

/-- The plan of a request with some of its parameters, the control parameters among them. -/
theorem Stages.compile_filterKeys (h : plan.Stages schema root parameters v entity graph)
    {p : String → Bool} (hp : ∀ key, v.classOf entity.tag key = .control → p key = true)
    {parts : List (List Filter)}
    (hparts : List.Forall₂
      (fun entry part => Filter.ofParameter v graph.closure entry.1 entry.2 = .ok part)
      ((filteringEntries v entity parameters).filter fun entry => p entry.1) parts) :
    compile schema root (parameters.filterKeys p) v =
      .ok { plan with filters := parts.flatten } := by
  rw [← filteringEntries_filterKeys] at hparts
  exact compile_eq_ok_iff.2 ⟨entity, graph,
    h.withParameters (Request.control_classify_filterKeys hp parameters) hparts⟩

/-! ## One parameter and the others -/

/-- A parameter whose filters stand together in the plan of its request. Without it the request has
the same plan without these filters, and with only the control parameters beside it, the same plan
with no others. -/
def ActsAlone (schema : Schema) (root : Candidate) (parameters : KeyedList RawValue)
    (v : Vocabulary) (entity : Entity) (key : String) (plan : QueryPlan) : Prop :=
  ∃ before own after, plan.filters = before ++ own ++ after ∧
    compile schema root (parameters.filterKeys fun other => other ≠ key) v =
      .ok { plan with filters := before ++ after } ∧
    compile schema root
        (parameters.filterKeys fun other => other = key ∨ v.classOf entity.tag other = .control) v =
      .ok { plan with filters := own }

theorem Stages.actsAlone (h : plan.Stages schema root parameters v entity graph)
    (hkey : key ∈ parameters.keys) (hclass : v.classOf entity.tag key ≠ .control) :
    plan.ActsAlone schema root parameters v entity key := by
  obtain ⟨parts, hfilters, heach⟩ := h.exists_filtersBy
  obtain ⟨front, value, back, hentries, hothers⟩ := exists_filteringEntries_eq hkey hclass
  have hcontrol : ∀ entry ∈ front ++ back, v.classOf entity.tag entry.1 ≠ .control := by
    intro entry hentry
    have hmem : entry ∈ filteringEntries v entity parameters := by
      rw [hentries]
      exact List.mem_append.2 ((List.mem_append.1 hentry).imp_right (List.mem_cons_of_mem _))
    exact (mem_filteringEntries_iff.1 hmem).2
  have hwithout : (filteringEntries v entity parameters).filter (fun entry => entry.1 ≠ key) =
      front ++ back := by
    rw [hentries]
    apply filter_eq_append_of_others (by simp)
    intro entry hentry
    simpa using hothers entry hentry
  have halone : (filteringEntries v entity parameters).filter
      (fun entry => entry.1 = key ∨ v.classOf entity.tag entry.1 = .control) = [(key, value)] := by
    rw [hentries]
    apply filter_eq_singleton_of_others (by simp)
    intro entry hentry
    simp [hothers entry hentry, hcontrol entry hentry]
  rw [hentries] at heach
  obtain ⟨before, rest, rfl, hbefore, hrest⟩ := exists_append_of_forall₂ heach
  obtain ⟨own, after, hown, hafter, rfl⟩ := List.forall₂_cons_left_iff.1 hrest
  refine ⟨before.flatten, own, after.flatten, ?_, ?_, ?_⟩
  · rw [hfilters, List.flatten_append, List.flatten_cons, List.append_assoc]
  · rw [← List.flatten_append]
    refine h.compile_filterKeys ?_ (hwithout ▸ List.rel_append hbefore hafter)
    intro other hother
    have hne : other ≠ key := fun heq => hclass (heq ▸ hother)
    simpa using hne
  · rw [← List.flatten_singleton (l := own)]
    refine h.compile_filterKeys ?_ (halone ▸ .cons hown .nil)
    intro other hother
    simp [hother]

/-- **Filter parameters act independently.** Each parameter that is no control parameter adds
filters of its own to the plan, and has no effect on those of the others or on anything else. -/
theorem actsAlone_of_compile (h : compile schema root parameters v = .ok plan)
    (hroot : schema.root root = .ok entity) (hkey : key ∈ parameters.keys)
    (hclass : v.classOf entity.tag key ≠ .control) :
    plan.ActsAlone schema root parameters v entity key := by
  obtain ⟨found, graph, hs⟩ := compile_eq_ok_iff.1 h
  obtain rfl : entity = found := by simpa [hroot] using hs.found
  exact hs.actsAlone hkey hclass

/-- A parameter that filters five members. -/
theorem actsAlone_forest :
    compile Forest.schema (.other (.text "Node")) Forest.parameters .conventional =
        .ok Forest.plan ∧
      Forest.schema.root (.other (.text "Node")) = .ok Forest.node ∧
      "name" ∈ Forest.parameters.keys ∧
      Vocabulary.conventional.classOf Forest.node.tag "name" ≠ .control ∧
      Forest.plan.ActsAlone Forest.schema (.other (.text "Node")) Forest.parameters .conventional
        Forest.node "name" := by
  have hroot : Forest.schema.root (.other (.text "Node")) = .ok Forest.node := by decide +kernel
  have hkey : "name" ∈ Forest.parameters.keys := by decide +kernel
  have hclass : Vocabulary.conventional.classOf Forest.node.tag "name" ≠ .control := by
    decide +kernel
  exact ⟨Forest.compile_parameters, hroot, hkey, hclass,
    actsAlone_of_compile Forest.compile_parameters hroot hkey hclass⟩

end QueryPlan

end RequestPlan
