import RequestPlan.Proofs.EquivalentRequests

/-!
# Keys with their namespace in front

A namespaced key filters the root and a general one whatever has the field. With nothing joined the
root is all there is, and the two ways to write a key come to the same.

* `KeyedList.renameKeys`: a keyed list with other names in the same places;
* `Closure.resolve?_of_joined_eq_nil`: without joined members a name stands for a field of its own
  member or for nothing;
* `Vocabulary.qualify`: a general key with the namespace in front;
* `QueryPlan.IsPlain`: requests in which every key that filters is general and can be qualified;
* `Filter.ofNamespaced_lead_append`: the filters of a key and of its qualified form;
* `QueryPlan.compile_qualified`: the outcome does not depend on how the keys are written.
-/

namespace RequestPlan

/-! ## Other names in the same places -/

namespace KeyedList

variable {α : Type} {m : KeyedList α} {rename : String → String}

/-- The keyed list of the same values under other names. -/
def renameKeys (rename : String → String) (m : KeyedList α) : KeyedList α :=
  ofList (m.entries.map fun entry => (rename entry.1, entry.2))

/-- Names that stay different keep their places. -/
theorem entries_renameKeys
    (h : ∀ key ∈ m.keys, ∀ other ∈ m.keys, rename key = rename other → key = other) :
    (m.renameKeys rename).entries = m.entries.map fun entry => (rename entry.1, entry.2) := by
  apply entries_ofList
  have hkeys : (m.entries.map fun entry => (rename entry.1, entry.2)).map Prod.fst =
      m.keys.map rename := by
    simp [keys, Function.comp_def]
  rw [hkeys]
  exact List.Nodup.map_on h m.nodup_keys

end KeyedList

/-! ## Nothing joined -/

namespace Closure

variable {closure : Closure} {member : Member} {field : String}

theorem related?_of_joined_eq_nil (h : closure.joined = []) (member : Member) (name : String) :
    closure.related? member name = none := by
  have hnone : closure.member? (member.path ++ [name]) = none := by
    simp [member?, members, h, closure.root_path]
  rw [related?, hnone, ite_self]

/-- Without joined members a name stands for a field of the member itself, or for nothing. -/
theorem resolve?_of_joined_eq_nil (h : closure.joined = []) (member : Member) (field : String) :
    closure.resolve? member field =
      if member.entity.isSearchable field then some ⟨member, field⟩ else none := by
  rw [resolve?_eq]
  simp only [related?_of_joined_eq_nil h, Option.bind_none]
  rw [List.findSome?_eq_none_iff.2 fun _ _ => rfl]

theorem owners_of_joined_eq_nil (h : closure.joined = []) (field : String) :
    closure.owners field = (closure.resolve? closure.root field).toList := by
  rw [resolve?_of_joined_eq_nil h, owners, members, h, List.filter_singleton]
  cases closure.root.entity.isSearchable field <;> rfl

end Closure

/-! ## One key written in two ways -/

namespace Vocabulary

variable {v : Vocabulary} {tag key : String}

/-- The key of a general parameter with the namespace in front; other keys as they are. -/
def qualify (v : Vocabulary) (tag key : String) : String :=
  if v.classOf tag key = .general then v.lead tag ++ key else key

theorem classOf_lead_append (h : v.classOf tag (v.lead tag ++ key) ≠ .control) :
    v.classOf tag (v.lead tag ++ key) = .namespaced := by
  have hlead : Text.startsWith (v.lead tag) (v.lead tag ++ key) = true :=
    Text.startsWith_iff.2 ⟨key, rfl⟩
  rw [Ne, classOf_eq_control_iff] at h
  rw [classOf, if_neg h, if_pos hlead]

theorem fieldOf_lead_append (v : Vocabulary) (tag field : String) :
    v.fieldOf tag (v.lead tag ++ field) = .ok field := by
  have hafter : Text.after? (v.lead tag).toList (v.lead tag ++ field).toList =
      some field.toList := by
    rw [Text.after?_eq_some_iff, String.toList_append]
  rw [fieldOf, hafter]
  simp

end Vocabulary

namespace Filter

variable {v : Vocabulary} {closure : Closure}

/-- With nothing joined, a general parameter makes the filters that it makes with the namespace of
the root in front of its key. -/
theorem ofNamespaced_lead_append (h : closure.joined = []) (key : String) (value : RawValue) :
    ofNamespaced v closure (v.lead closure.root.entity.tag ++ key) value =
      ofGeneral v closure key value := by
  have howners : generalOwners closure key = (closure.resolve? closure.root key).toList := by
    rw [generalOwners]
    split
    · rfl
    · exact Closure.owners_of_joined_eq_nil h key
  have hconnective : generalConnective closure = .and := by
    simp [generalConnective, Closure.isActive, h]
  rw [ofNamespaced, ofGeneral, Vocabulary.fieldOf_lead_append, howners, hconnective]
  rfl

end Filter

/-! ## Requests written in two ways -/

namespace QueryPlan

variable {schema : Schema} {root : Candidate} {parameters : KeyedList RawValue} {v : Vocabulary}
  {entity : Entity} {key : String}

/-- No key has the namespace of the entity in front, and the general ones can have it without being
taken for control keys. -/
structure IsPlain (v : Vocabulary) (entity : Entity) (parameters : KeyedList RawValue) : Prop where
  not_namespaced : ∀ key ∈ parameters.keys, v.classOf entity.tag key ≠ .namespaced
  not_control : ∀ key ∈ parameters.keys, v.classOf entity.tag key = .general →
    v.classOf entity.tag (v.lead entity.tag ++ key) ≠ .control

/-- The request with its general keys qualified. -/
def qualified (v : Vocabulary) (entity : Entity) (parameters : KeyedList RawValue) :
    KeyedList RawValue :=
  parameters.renameKeys (v.qualify entity.tag)

namespace IsPlain

theorem classOf_qualify (h : IsPlain v entity parameters) (hkey : key ∈ parameters.keys) :
    v.classOf entity.tag (v.qualify entity.tag key) =
      if v.classOf entity.tag key = .general then .namespaced else .control := by
  rw [Vocabulary.qualify]
  split
  · next hgeneral => exact Vocabulary.classOf_lead_append (h.not_control key hkey hgeneral)
  · next hgeneral =>
    have hnamespaced := h.not_namespaced key hkey
    cases hclass : v.classOf entity.tag key <;> simp_all

/-- Qualifying keeps keys apart: a qualified key is namespaced, and no key was before. -/
theorem entries_qualified (h : IsPlain v entity parameters) :
    (qualified v entity parameters).entries =
      parameters.entries.map fun entry => (v.qualify entity.tag entry.1, entry.2) := by
  refine KeyedList.entries_renameKeys fun key hkey other hother heq => ?_
  have hclass := h.classOf_qualify hkey
  rw [heq, h.classOf_qualify hother] at hclass
  by_cases hgeneral : v.classOf entity.tag key = .general <;>
    by_cases hgeneral' : v.classOf entity.tag other = .general
  · simpa [Vocabulary.qualify, hgeneral, hgeneral'] using heq
  · simp [hgeneral, hgeneral'] at hclass
  · simp [hgeneral, hgeneral'] at hclass
  · simpa [Vocabulary.qualify, hgeneral, hgeneral'] using heq

theorem entriesOf_namespaced (h : IsPlain v entity parameters) :
    entriesOf v entity parameters .namespaced = [] := by
  rw [entriesOf, List.filter_eq_nil_iff]
  intro entry hentry
  simpa using h.not_namespaced entry.1 (List.mem_map_of_mem hentry)

/-- A class that qualifying fills from a single class holds the entries of that one, qualified. -/
theorem entriesOf_qualified (h : IsPlain v entity parameters) {source target : ParameterClass}
    (hclass : ∀ key ∈ parameters.keys,
      (if v.classOf entity.tag key = .general then .namespaced else .control) = target ↔
        v.classOf entity.tag key = source) :
    entriesOf v entity (qualified v entity parameters) target =
      (entriesOf v entity parameters source).map fun entry =>
        (v.qualify entity.tag entry.1, entry.2) := by
  rw [entriesOf, entriesOf, h.entries_qualified, List.filter_map]
  congr 1
  refine List.filter_congr fun entry hentry => ?_
  have hkey : entry.1 ∈ parameters.keys := List.mem_map_of_mem hentry
  simp only [Function.comp_apply, h.classOf_qualify hkey, hclass entry.1 hkey]

theorem entriesOf_qualified_control (h : IsPlain v entity parameters) :
    entriesOf v entity (qualified v entity parameters) .control =
      entriesOf v entity parameters .control := by
  have hclass : ∀ key ∈ parameters.keys,
      (if v.classOf entity.tag key = .general then .namespaced else .control) =
        ParameterClass.control ↔ v.classOf entity.tag key = .control := by
    intro key hkey
    have hnamespaced := h.not_namespaced key hkey
    cases hclass : v.classOf entity.tag key <;> simp_all
  rw [h.entriesOf_qualified hclass]
  -- A control key is left as it is.
  refine (List.map_congr_left fun entry hentry => ?_).trans (List.map_id _)
  have hcontrol : v.classOf entity.tag entry.1 = .control := by
    simpa using (List.mem_filter.1 hentry).2
  simp [Vocabulary.qualify, hcontrol]

theorem entriesOf_qualified_namespaced (h : IsPlain v entity parameters) :
    entriesOf v entity (qualified v entity parameters) .namespaced =
      (entriesOf v entity parameters .general).map fun entry =>
        (v.lead entity.tag ++ entry.1, entry.2) := by
  have hclass : ∀ key ∈ parameters.keys,
      (if v.classOf entity.tag key = .general then .namespaced else .control) =
        ParameterClass.namespaced ↔ v.classOf entity.tag key = .general := by
    intro key _
    split <;> simp_all
  rw [h.entriesOf_qualified hclass]
  refine List.map_congr_left fun entry hentry => ?_
  have hgeneral : v.classOf entity.tag entry.1 = .general := by
    simpa using (List.mem_filter.1 hentry).2
  simp [Vocabulary.qualify, hgeneral]

theorem entriesOf_qualified_general (h : IsPlain v entity parameters) :
    entriesOf v entity (qualified v entity parameters) .general = [] := by
  -- No key becomes general, and none was namespaced.
  have hclass : ∀ key ∈ parameters.keys,
      (if v.classOf entity.tag key = .general then .namespaced else .control) =
        ParameterClass.general ↔ v.classOf entity.tag key = .namespaced := by
    intro key hkey
    have hnamespaced := h.not_namespaced key hkey
    split <;> simp_all
  rw [h.entriesOf_qualified hclass, h.entriesOf_namespaced, List.map_nil]

theorem get?_qualified (h : IsPlain v entity parameters) (hkey : key ∈ v.controlKeys) :
    (qualified v entity parameters).get? key = parameters.get? key := by
  have hcontrol : (Request.classify v entity.tag (qualified v entity parameters)).control =
      (Request.classify v entity.tag parameters).control :=
    KeyedList.eq_of_entries_eq h.entriesOf_qualified_control
  rw [← Request.get?_control hkey entity.tag, hcontrol, Request.get?_control hkey]

/-- With nothing joined, what were the general filters are the namespaced ones. -/
theorem ofRequest_qualified (h : IsPlain v entity parameters) {closure : Closure}
    (hroot : closure.root.entity = entity) (hjoined : closure.joined = []) :
    Filter.ofRequest v closure (Request.classify v entity.tag (qualified v entity parameters)) =
      Filter.ofRequest v closure (Request.classify v entity.tag parameters) := by
  rw [ofRequest_classify, ofRequest_classify, h.entriesOf_qualified_namespaced,
    h.entriesOf_qualified_general, h.entriesOf_namespaced, List.mapM_map, ← hroot]
  simp only [Function.comp_def, Filter.ofNamespaced_lead_append hjoined, List.mapM_nil, pure_bind,
    List.flatten_nil, List.append_nil, List.nil_append]

end IsPlain

/-- **Without joined relations it does not matter whether keys have their namespace in front.** -/
theorem compile_qualified (hroot : schema.root root = .ok entity)
    (hplain : IsPlain v entity parameters)
    (hjoins : ∀ graph, JoinGraph.build schema entity (requestedChains v entity parameters) =
      .ok graph → graph.joins = []) :
    (qualified v entity parameters).entries =
        parameters.entries.map (fun entry => (v.qualify entity.tag entry.1, entry.2)) ∧
      compile schema root (qualified v entity parameters) v =
        compile schema root parameters v := by
  refine ⟨hplain.entries_qualified, Eq.symm (compile_congr fun found hfound => ?_)⟩
  obtain rfl : entity = found := by simpa [hroot] using hfound
  refine ⟨fun key hkey => (hplain.get?_qualified hkey).symm, fun graph hgraph => Eq.symm ?_⟩
  have hfollows := JoinGraph.followsSchema_of_build hgraph
  refine hplain.ofRequest_qualified (by rw [hfollows.root_eq]) ?_
  rw [← List.length_eq_zero_iff, ← hfollows.length_joins, hjoins graph hgraph, List.length_nil]

end QueryPlan

/-- A request for nodes in which no chain leads anywhere and some keys stand for no field. -/
def Forest.unjoinedParameters : KeyedList RawValue :=
  .ofList
    [("_with", .text "nowhere.parent, .keeper"), ("name", .list [.text "ash", .text "yew~"]),
     ("parent_name", .text "oak"), ("kind", .list []), ("nodekind", .text "tree"),
     ("_order", .text "desc"), ("_orderBy", .text "kind")]

theorem QueryPlan.compile_qualified_forest :
    Forest.schema.root (.other (.text "Node")) = .ok Forest.node ∧
      IsPlain .conventional Forest.node Forest.unjoinedParameters ∧
      (∀ graph, JoinGraph.build Forest.schema Forest.node
          (requestedChains .conventional Forest.node Forest.unjoinedParameters) = .ok graph →
        graph.joins = []) ∧
      (qualified .conventional Forest.node Forest.unjoinedParameters).entries =
        Forest.unjoinedParameters.entries.map (fun entry =>
          (Vocabulary.conventional.qualify Forest.node.tag entry.1, entry.2)) ∧
      compile Forest.schema (.other (.text "Node"))
          (qualified .conventional Forest.node Forest.unjoinedParameters) .conventional =
        compile Forest.schema (.other (.text "Node")) Forest.unjoinedParameters .conventional := by
  have hroot : Forest.schema.root (.other (.text "Node")) = .ok Forest.node := by decide +kernel
  have hplain : IsPlain .conventional Forest.node Forest.unjoinedParameters :=
    ⟨by decide +kernel, by decide +kernel⟩
  have hbuilt : (JoinGraph.build Forest.schema Forest.node
      (requestedChains .conventional Forest.node Forest.unjoinedParameters)).map
        JoinGraph.joins = .ok [] := by decide +kernel
  have hjoins : ∀ graph, JoinGraph.build Forest.schema Forest.node
      (requestedChains .conventional Forest.node Forest.unjoinedParameters) = .ok graph →
        graph.joins = [] := by
    intro graph hgraph
    simpa [hgraph, Except.map] using hbuilt
  exact ⟨hroot, hplain, hjoins, compile_qualified hroot hplain hjoins⟩

end RequestPlan
