import RequestPlan.Proofs.ClosedSchema
import RequestPlan.Proofs.PlanExtension

/-!
# Outcomes of a compilation

A request can go wrong in three ways only, and the first one that applies is reported: nothing to
start from, two kinds of order at once, and a number whose exponent is out of all bounds. Every
other request for an entity of a schema that was made has a plan.

* `Scalar.ofRaw_eq_error_iff`, `Comparison.ofRaw_eq_error_iff`: values that cannot be compared with;
* `RawValue.IsTextual`: the values that a request carries as a rule, texts and lists of texts;
* `RowOrder.exists_checkConflict_eq_error_iff`, `RowOrder.exists_ofControl`: what asking for an
  order can end in;
* `QueryPlan.FailsOnly`: the failures of a compilation, with their conditions;
* `QueryPlan.failsOnly_of_make`: there are no others.
-/

namespace RequestPlan

/-! ## Numbers out of range -/

/-- The text is written like a number, and the exponent of that number is out of all bounds. -/
def Decimal.IsOutOfRange (literal : String) : Prop :=
  ∃ number, Decimal.ofText? literal.toList = some number ∧ ¬ number.FitsExponentRange

theorem Scalar.ofWord?_eq_none_iff {word : String} :
    ofWord? word = none ↔ word ∉ ["true", "false", "null", "undefined"] := by
  unfold ofWord?
  split_ifs <;> simp_all

/-- No word that stands for another value is written like a number. -/
theorem Scalar.ofWord?_eq_none_of_ofText? {word : String} {number : Decimal}
    (h : Decimal.ofText? word.toList = some number) : ofWord? word = none := by
  have hnone : ∀ other ∈ ["true", "false", "null", "undefined"],
      Decimal.ofText? other.toList = none := by decide +kernel
  refine ofWord?_eq_none_iff.2 fun hword => ?_
  rw [hnone word hword] at h
  cases h

theorem Scalar.ofNumber_eq_error_iff {literal : String} {number : Decimal} {e : Error} :
    ofNumber literal number = .error e ↔
      ¬ number.FitsExponentRange ∧ e = .numberOutOfRange literal := by
  unfold ofNumber
  split
  · next h => simp [h, eq_comm]
  · next h =>
    have hfits := Classical.not_not.1 h
    simp only [hfits, not_true, false_and, iff_false]
    split
    · simp
    · split
      · simp
      · split <;> simp

theorem Scalar.ofRaw_eq_error_iff {value : RawValue} {e : Error} :
    ofRaw value = .error e ↔
      ∃ literal, value = .text literal ∧ Decimal.IsOutOfRange literal ∧
        e = .numberOutOfRange literal := by
  cases value with
  | text literal =>
    simp only [ofRaw, ofText, RawValue.text.injEq, exists_eq_left', Decimal.IsOutOfRange]
    cases hnumber : Decimal.ofText? literal.toList with
    | none => cases ofWord? literal <;> simp
    | some number => simp [ofWord?_eq_none_of_ofText? hnumber, ofNumber_eq_error_iff]
  | list | int | bool | null => simp [ofRaw]

theorem Comparison.ofRaw_eq_error_iff {v : Vocabulary} {value : RawValue} {e : Error} :
    ofRaw v value = .error e ↔
      v.pattern? value = none ∧ ∃ literal, value = .text literal ∧ Decimal.IsOutOfRange literal ∧
        e = .numberOutOfRange literal := by
  unfold ofRaw
  cases v.pattern? value with
  | some pattern => simp
  | none =>
    rw [← Scalar.ofRaw_eq_error_iff]
    cases Scalar.ofRaw value <;> simp [Except.map]

/-! ## Filters that cannot be made -/

/-- The value that counts for a filter is written like a number and out of range. -/
structure RawValue.Overflows (v : Vocabulary) (value : RawValue) (literal : String) : Prop where
  latest : value.latest = .text literal
  plain : v.pattern? (.text literal) = none
  outOfRange : Decimal.IsOutOfRange literal

namespace Filter

variable {v : Vocabulary} {closure : Closure} {key : String} {value : RawValue}
  {connective : Connective} {owners : List FieldOwner} {e : Error}

theorem overflows_of_ofOwners_eq_error
    (h : ofOwners v owners value.latest connective = .error e) :
    ∃ literal, value.Overflows v literal ∧ e = .numberOutOfRange literal := by
  obtain ⟨owner, -, howner⟩ := exists_item_of_mapM_eq_error h
  have hcomparison : Comparison.ofRaw v value.latest = .error e := by
    unfold Filter.ofRaw at howner
    cases hc : Comparison.ofRaw v value.latest <;> simp_all [Except.map]
  obtain ⟨hpattern, literal, hlatest, houtOfRange, rfl⟩ :=
    Comparison.ofRaw_eq_error_iff.1 hcomparison
  exact ⟨literal, ⟨hlatest, hlatest ▸ hpattern, houtOfRange⟩, rfl⟩

theorem overflows_of_ofNamespaced_eq_error
    (hclass : v.classOf closure.root.entity.tag key = .namespaced)
    (h : ofNamespaced v closure key value = .error e) :
    ∃ literal, value.Overflows v literal ∧ e = .numberOutOfRange literal := by
  obtain ⟨field, hfield, -⟩ := Vocabulary.fieldOf_of_classOf_eq hclass
  rw [ofNamespaced, hfield] at h
  split at h
  · cases h
  · exact overflows_of_ofOwners_eq_error h

theorem overflows_of_ofGeneral_eq_error (h : ofGeneral v closure key value = .error e) :
    ∃ literal, value.Overflows v literal ∧ e = .numberOutOfRange literal := by
  rw [ofGeneral] at h
  split at h
  · cases h
  · exact overflows_of_ofOwners_eq_error h

end Filter

/-! ## Orders -/

namespace RawValue

/-- A text, or a list of texts. -/
def IsTextual : RawValue → Prop
  | text _ => True
  | list values => ∀ value ∈ values, ∃ text, value = .text text
  | int _ | bool _ | null => False

theorem latest_of_isTextual {value : RawValue} (h : value.IsTextual) :
    value.latest = .null ∨ ∃ text, value.latest = .text text := by
  cases value with
  | text value => exact .inr ⟨value, rfl⟩
  | list values =>
    cases hlast : values.getLast? with
    | none => exact .inl (by simp [latest, hlast])
    | some last =>
      obtain ⟨text, rfl⟩ := h last (List.mem_of_getLast? hlast)
      exact .inr ⟨text, by simp [latest, hlast]⟩
  | int | bool | null => exact absurd h id

end RawValue

namespace RowOrder

variable {v : Vocabulary} {control : KeyedList RawValue} {closure : Closure} {e : Error}

theorem checkConflict_eq_error_iff :
    checkConflict v control = .error e ↔
      ∃ fields flag, control.get? v.orderKey = some fields ∧ control.get? v.randomKey = some flag ∧
        e = .conflictingOrder (v.orderKey, fields) (v.randomKey, flag) := by
  unfold checkConflict
  split
  · next fields flag hfields hflag => simp [hfields, hflag, eq_comm]
  · next hnone =>
    simp only [reduceCtorEq, false_iff]
    rintro ⟨fields, flag, hfields, hflag, -⟩
    exact hnone fields flag hfields hflag

theorem exists_checkConflict_eq_error_iff :
    (∃ e, checkConflict v control = .error e) ↔
      (∃ fields, control.get? v.orderKey = some fields) ∧
        ∃ flag, control.get? v.randomKey = some flag := by
  simp only [checkConflict_eq_error_iff]
  constructor
  · rintro ⟨e, fields, flag, hfields, hflag, -⟩
    exact ⟨⟨fields, hfields⟩, flag, hflag⟩
  · rintro ⟨⟨fields, hfields⟩, flag, hflag⟩
    exact ⟨_, fields, flag, hfields, hflag, rfl⟩

/-- A direction that is given as a text, or not at all, is one. -/
theorem exists_direction
    (h : ∀ value, control.get? v.directionKey = some value → value.IsTextual) :
    ∃ d, direction v control = .ok d := by
  unfold direction
  cases hget : control.get? v.directionKey with
  | none => exact ⟨_, rfl⟩
  | some value =>
    rcases RawValue.latest_of_isTextual (h value hget) with hnull | ⟨text, htext⟩
    · exact ⟨.ascending, by rw [Option.elim_some, hnull]; rfl⟩
    · exact ⟨_, by rw [Option.elim_some, htext]; rfl⟩

/-- Without a conflict there is an order, or there is none to ask for. -/
theorem exists_ofControl (hconflict : checkConflict v control = .ok ())
    (h : ∀ value, control.get? v.directionKey = some value → value.IsTextual) :
    ∃ order, ofControl v closure control = .ok order := by
  obtain ⟨d, hd⟩ := exists_direction h
  simp only [ofControl, bind_eq_ok_iff]
  split
  · exact ⟨_, (), hconflict, rfl⟩
  · split
    · exact ⟨_, (), hconflict, rfl⟩
    · exact ⟨_, (), hconflict, bind_eq_ok_iff.2 ⟨d, hd, rfl⟩⟩

end RowOrder

/-! ## Plans -/

namespace QueryPlan

variable {schema : Schema} {root : Candidate} {parameters : KeyedList RawValue} {v : Vocabulary}
  {entity : Entity} {graph : JoinGraph}

/-- The request asks for an order by fields and for a random one. -/
def AsksForBothOrders (v : Vocabulary) (parameters : KeyedList RawValue) : Prop :=
  v.orderKey ∈ parameters.keys ∧ v.randomKey ∈ parameters.keys

/-- The request has a plan, or it fails because of a parameter that would filter by a number out of
range. -/
def HasPlanUnlessOverflowing (schema : Schema) (root : Candidate) (parameters : KeyedList RawValue)
    (v : Vocabulary) (entity : Entity) : Prop :=
  (∃ plan, compile schema root parameters v = .ok plan) ∨
    ∃ entry ∈ filteringEntries v entity parameters, ∃ literal, entry.2.Overflows v literal ∧
      compile schema root parameters v = .error (.numberOutOfRange literal)

theorem exists_checkConflict_classify_iff (tag : String) :
    (∃ e, RowOrder.checkConflict v (Request.classify v tag parameters).control = .error e) ↔
      AsksForBothOrders v parameters := by
  have horder : v.orderKey ∈ v.controlKeys := by simp [Keywords.controlKeys]
  have hrandom : v.randomKey ∈ v.controlKeys := by simp [Keywords.controlKeys]
  rw [RowOrder.exists_checkConflict_eq_error_iff, Request.get?_control horder,
    Request.get?_control hrandom, AsksForBothOrders, KeyedList.mem_keys_iff, KeyedList.mem_keys_iff]

/-- Something that a plan cannot start from is reported before all else. -/
theorem exists_invalidEntity (h : ¬ schema.Recognises root) (parameters : KeyedList RawValue)
    (v : Vocabulary) :
    ∃ e, compile schema root parameters v = .error e ∧ e.kind = .invalidEntity := by
  rcases exists_ok_or_error (schema.root root) with hok | ⟨e, he⟩
  · exact absurd (Schema.exists_root_iff.1 hok) h
  · exact ⟨e, bind_eq_error_iff.2 (.inl he), Schema.kind_of_root_eq_error he⟩

/-- Two kinds of order are reported before anything else in the request. -/
theorem exists_conflictingModifiers (hroot : schema.root root = .ok entity)
    (h : AsksForBothOrders v parameters) :
    ∃ e, compile schema root parameters v = .error e ∧ e.kind = .conflictingModifiers := by
  obtain ⟨e, he⟩ := (exists_checkConflict_classify_iff entity.tag).2 h
  have hkind : e.kind = .conflictingModifiers := by
    obtain ⟨fields, flag, -, -, rfl⟩ := RowOrder.checkConflict_eq_error_iff.1 he
    rfl
  refine ⟨e, ?_, hkind⟩
  simp only [compile, bind_eq_error_iff]
  exact .inr ⟨entity, hroot, .inl he⟩

/-- The namespaced parameters make their filters unless one of them overflows. -/
theorem exists_allNamespaced (v : Vocabulary) (parameters : KeyedList RawValue)
    (hclosure : graph.closure.root.entity = entity) :
    (∃ filters, Filter.allNamespaced v graph.closure
      (Request.classify v entity.tag parameters).namespaced = .ok filters) ∨
    ∃ entry ∈ filteringEntries v entity parameters, ∃ literal, entry.2.Overflows v literal ∧
      Filter.allNamespaced v graph.closure (Request.classify v entity.tag parameters).namespaced =
        .error (.numberOutOfRange literal) := by
  refine (exists_ok_or_error _).imp_right ?_
  rintro ⟨e, he⟩
  obtain ⟨entry, hentry, hfail⟩ := exists_item_of_mapM_eq_error (map_eq_error_iff.1 he)
  have hclass : v.classOf graph.closure.root.entity.tag entry.1 = .namespaced := by
    rw [hclosure]
    simpa using (KeyedList.mem_entries_filterKeys.1 hentry).2
  obtain ⟨literal, hover, rfl⟩ := Filter.overflows_of_ofNamespaced_eq_error hclass hfail
  exact ⟨entry, List.mem_append_left _ hentry, literal, hover, he⟩

/-- The general parameters make their filters unless one of them overflows. -/
theorem exists_allGeneral (v : Vocabulary) (entity : Entity) (parameters : KeyedList RawValue)
    (closure : Closure) :
    (∃ filters, Filter.allGeneral v closure (Request.classify v entity.tag parameters).general =
      .ok filters) ∨
    ∃ entry ∈ filteringEntries v entity parameters, ∃ literal, entry.2.Overflows v literal ∧
      Filter.allGeneral v closure (Request.classify v entity.tag parameters).general =
        .error (.numberOutOfRange literal) := by
  refine (exists_ok_or_error _).imp_right ?_
  rintro ⟨e, he⟩
  obtain ⟨entry, hentry, hfail⟩ := exists_item_of_mapM_eq_error (map_eq_error_iff.1 he)
  obtain ⟨literal, hover, rfl⟩ := Filter.overflows_of_ofGeneral_eq_error hfail
  exact ⟨entry, List.mem_append_right _ hentry, literal, hover, he⟩

theorem checkConflict_classify_eq_ok (tag : String) (h : ¬ AsksForBothOrders v parameters) :
    RowOrder.checkConflict v (Request.classify v tag parameters).control = .ok () := by
  rcases exists_ok_or_error (RowOrder.checkConflict v (Request.classify v tag parameters).control)
    with ⟨_, hok⟩ | herror
  · exact hok
  · exact absurd ((exists_checkConflict_classify_iff tag).1 herror) h

/-- The order of a request that carries texts can be read if it asks for one kind at most. -/
theorem exists_ofControl_classify (closure : Closure) (tag : String)
    (h : ¬ AsksForBothOrders v parameters) (htext : ∀ value ∈ parameters.values, value.IsTextual) :
    ∃ order, RowOrder.ofControl v closure (Request.classify v tag parameters).control =
      .ok order := by
  refine RowOrder.exists_ofControl (checkConflict_classify_eq_ok tag h) fun value hvalue => ?_
  have hdirection : v.directionKey ∈ v.controlKeys := by simp [Keywords.controlKeys]
  rw [Request.get?_control hdirection] at hvalue
  exact htext value (KeyedList.mem_values_of_get?_eq_some hvalue)

/-- Once there is a join graph, nothing but a number can go wrong in a request that carries texts
and asks for one kind of order at most. -/
theorem exists_plan_or_overflows (hroot : schema.root root = .ok entity)
    (hgraph : JoinGraph.build schema entity (requestedChains v entity parameters) = .ok graph)
    (horders : ¬ AsksForBothOrders v parameters)
    (htext : ∀ value ∈ parameters.values, value.IsTextual) :
    HasPlanUnlessOverflowing schema root parameters v entity := by
  have hconflict := checkConflict_classify_eq_ok entity.tag horders
  have hclosure : graph.closure.root.entity = entity := by
    obtain ⟨walk, reached, hwalk, rfl⟩ := JoinGraph.exists_sound_of_build hgraph
    exact hwalk.entity_root
  rcases exists_allNamespaced v parameters hclosure with
    ⟨namespaced, hnamespaced⟩ | ⟨entry, hentry, literal, hover, hfail⟩
  · rcases exists_allGeneral v entity parameters graph.closure with
      ⟨general, hgeneral⟩ | ⟨entry, hentry, literal, hover, hfail⟩
    · obtain ⟨order, horder⟩ := exists_ofControl_classify graph.closure entity.tag horders htext
      left
      simp only [compile, bind_eq_ok_iff]
      exact ⟨_, entity, hroot, (), hconflict, graph, hgraph, namespaced, hnamespaced, general,
        hgeneral, order, horder, rfl⟩
    · refine .inr ⟨entry, hentry, literal, hover, ?_⟩
      simp only [compile, bind_eq_error_iff]
      exact .inr ⟨entity, hroot, .inr ⟨(), hconflict, .inr ⟨graph, hgraph,
        .inr ⟨namespaced, hnamespaced, .inl hfail⟩⟩⟩⟩
  · refine .inr ⟨entry, hentry, literal, hover, ?_⟩
    simp only [compile, bind_eq_error_iff]
    exact .inr ⟨entity, hroot, .inr ⟨(), hconflict, .inr ⟨graph, hgraph, .inl hfail⟩⟩⟩

/-- What a compilation can end in. -/
structure FailsOnly (schema : Schema) (root : Candidate) (parameters : KeyedList RawValue)
    (v : Vocabulary) : Prop where
  invalidEntity : (∃ e, compile schema root parameters v = .error e ∧ e.kind = .invalidEntity) ↔
    ¬ schema.Recognises root
  /-- The values of the two parameters do not matter, and nor does the rest of the request. -/
  conflict : schema.Recognises root →
    ((∃ e, compile schema root parameters v = .error e ∧ e.kind = .conflictingModifiers) ↔
      AsksForBothOrders v parameters)
  remaining : schema.Recognises root → ¬ AsksForBothOrders v parameters →
    ∃ entity, schema.root root = .ok entity ∧
      HasPlanUnlessOverflowing schema root parameters v entity
  noAssertion : ∀ e, compile schema root parameters v = .error e → e.kind ≠ .brokenAssertion

/-- The kind of a failure, by the first of the three conditions that applies. -/
theorem kind_of_compile_eq_error
    (h : schema.Recognises root → ¬ AsksForBothOrders v parameters →
      ∃ entity, schema.root root = .ok entity ∧
        HasPlanUnlessOverflowing schema root parameters v entity)
    {e : Error} (he : compile schema root parameters v = .error e) :
    (¬ schema.Recognises root ∧ e.kind = .invalidEntity) ∨
      (AsksForBothOrders v parameters ∧ e.kind = .conflictingModifiers) ∨
      e.kind = .numberOutOfRange := by
  by_cases hrecognised : schema.Recognises root
  · by_cases horders : AsksForBothOrders v parameters
    · obtain ⟨entity, hroot⟩ := Schema.exists_root_iff.2 hrecognised
      obtain ⟨e', he', hkind⟩ := exists_conflictingModifiers hroot horders
      obtain rfl : e = e' := by simpa [he] using he'
      exact .inr (.inl ⟨horders, hkind⟩)
    · obtain ⟨entity, -, ⟨plan, hplan⟩ | ⟨_, -, literal, -, hfail⟩⟩ := h hrecognised horders
      · simp [he] at hplan
      · obtain rfl : e = .numberOutOfRange literal := by simpa [he] using hfail
        exact .inr (.inr rfl)
  · obtain ⟨e', he', hkind⟩ := exists_invalidEntity hrecognised parameters v
    obtain rfl : e = e' := by simpa [he] using he'
    exact .inl ⟨hrecognised, hkind⟩

/-- The three failures exclude each other, so that each has its own condition. -/
theorem failsOnly_of_remaining
    (h : schema.Recognises root → ¬ AsksForBothOrders v parameters →
      ∃ entity, schema.root root = .ok entity ∧
        HasPlanUnlessOverflowing schema root parameters v entity) :
    FailsOnly schema root parameters v where
  invalidEntity := by
    refine ⟨?_, fun hnot => exists_invalidEntity hnot parameters v⟩
    rintro ⟨e, he, hinvalid⟩
    rcases kind_of_compile_eq_error h he with ⟨hnot, -⟩ | ⟨-, hother⟩ | hother
    · exact hnot
    · simp [hother] at hinvalid
    · simp [hother] at hinvalid
  conflict hrecognised := by
    constructor
    · rintro ⟨e, he, hconflicting⟩
      rcases kind_of_compile_eq_error h he with ⟨hnot, -⟩ | ⟨horders, -⟩ | hother
      · exact absurd hrecognised hnot
      · exact horders
      · simp [hother] at hconflicting
    · intro horders
      obtain ⟨entity, hroot⟩ := Schema.exists_root_iff.2 hrecognised
      exact exists_conflictingModifiers hroot horders
  remaining := h
  noAssertion e he := by
    rcases kind_of_compile_eq_error h he with ⟨-, hk⟩ | ⟨-, hk⟩ | hk <;> simp [hk]

/-- **Compiling a request fails in three ways only**, for a schema that was made of relations with
known kinds and a request that carries texts. -/
theorem failsOnly_of_make {candidates : List Candidate}
    (hmake : Schema.make candidates = .ok schema)
    (hkinds : schema.HasKnownKinds) (htext : ∀ value ∈ parameters.values, value.IsTextual) :
    FailsOnly schema root parameters v := by
  refine failsOnly_of_remaining fun hrecognised horders => ?_
  obtain ⟨entity, hroot⟩ := Schema.exists_root_iff.2 hrecognised
  obtain ⟨graph, hgraph⟩ := Schema.exists_build_of_covers (Schema.isClosed_of_make_eq_ok hmake)
    hkinds hroot (requestedChains v entity parameters)
  exact ⟨entity, hroot, exists_plan_or_overflows hroot hgraph horders htext⟩

end QueryPlan

/-- A request for nodes with a number that has too large an exponent. -/
def Forest.overflowing : KeyedList RawValue :=
  .ofList
    [("_with", .list [.text "keeper", .text "parent.nowhere"]), ("keeper_name", .text "oak"),
     ("kind", .text "1e9999999999999999999"), ("_order", .list [])]

theorem QueryPlan.failsOnly_forest :
    Schema.make [.entity Forest.node, .entity Forest.keeper] = .ok Forest.schema ∧
      Forest.schema.HasKnownKinds ∧ (∀ value ∈ Forest.overflowing.values, value.IsTextual) ∧
      compile Forest.schema (.entity Forest.node) Forest.overflowing .conventional =
        .error (.numberOutOfRange "1e9999999999999999999") ∧
      FailsOnly Forest.schema (.entity Forest.node) Forest.overflowing .conventional := by
  have hmake : Schema.make [.entity Forest.node, .entity Forest.keeper] = .ok Forest.schema := by
    decide +kernel
  have hkinds : Forest.schema.HasKnownKinds := by
    unfold Schema.HasKnownKinds
    decide +kernel
  have htext : ∀ value ∈ Forest.overflowing.values, value.IsTextual := by
    have hvalues : Forest.overflowing.values =
        [.list [.text "keeper", .text "parent.nowhere"], .text "oak",
         .text "1e9999999999999999999", .list []] := by decide +kernel
    simp [hvalues, RawValue.IsTextual]
  exact ⟨hmake, hkinds, htext, by decide +kernel, failsOnly_of_make hmake hkinds htext⟩

end RequestPlan
