import Mathlib.Data.List.Nodup
import RequestPlan.Filter.Request
import RequestPlan.Proofs.FieldResolution
import RequestPlan.Proofs.Outcome

/-!
# What a parameter contributes

A parameter with a value makes one filter for each owner that it addresses, and all of them compare
with that value. Which owners these are depends on the class of the parameter and on the closure.

* `Filter.Contribution`: the filters that a value makes of given owners;
* `Filter.contribution_of_ofNamespaced`, `Filter.contribution_of_ofGeneral`: those of one parameter;
* `Filter.SharesValue`, `Filter.OnSingleOwner`, `Filter.OfNamespaced`, `Filter.OfGeneral`: what they
  have to be like;
* `Filter.ofNamespaced_spec`, `Filter.ofGeneral_spec`: what they are like.
-/

namespace RequestPlan

namespace Filter

/-- One filter for each owner if there is a value, and no filter if there is none. -/
structure Contribution (v : Vocabulary) (owners : List FieldOwner) (value : RawValue)
    (connective : Connective) (filters : List Filter) : Prop where
  null : value.latest = .null → filters = []
  each : value.latest ≠ .null → filters.map (fun f => (f.tableAlias, f.field)) =
    owners.map fun owner => (owner.member.tableAlias, owner.field)
  connective : ∀ f ∈ filters, f.connective = connective
  comparison : ∀ f ∈ filters, Comparison.ofRaw v value.latest = .ok f.comparison

variable {v : Vocabulary} {closure : Closure} {key : String} {value : RawValue}
  {connective : Connective} {owners : List FieldOwner} {filters : List Filter}

theorem ofRaw_eq_ok_iff {tableAlias field : String} {f : Filter} :
    Filter.ofRaw v tableAlias field value connective = .ok f ↔
      f.tableAlias = tableAlias ∧ f.field = field ∧ f.connective = connective ∧
        Comparison.ofRaw v value = .ok f.comparison := by
  obtain ⟨tableAlias', field', comparison', connective'⟩ := f
  unfold Filter.ofRaw
  cases Comparison.ofRaw v value with
  | error => simp [Except.map]
  | ok comparison =>
    simp only [Except.map, Except.ok.injEq, Filter.mk.injEq]
    constructor
    · rintro ⟨rfl, rfl, rfl, rfl⟩
      exact ⟨rfl, rfl, rfl, rfl⟩
    · rintro ⟨rfl, rfl, rfl, rfl⟩
      exact ⟨rfl, rfl, rfl, rfl⟩

theorem ofOwners_spec (h : ofOwners v owners value connective = .ok filters) :
    filters.map (fun f => (f.tableAlias, f.field)) =
        owners.map (fun owner => (owner.member.tableAlias, owner.field)) ∧
      ∀ f ∈ filters, f.connective = connective ∧ Comparison.ofRaw v value = .ok f.comparison := by
  rw [ofOwners, mapM_eq_ok_iff] at h
  induction h with
  | nil => exact ⟨rfl, by simp⟩
  | cons hfirst _ ih =>
    obtain ⟨halias, hfield, hconnective, hcomparison⟩ := ofRaw_eq_ok_iff.1 hfirst
    obtain ⟨heach, hall⟩ := ih
    refine ⟨?_, List.forall_mem_cons.2 ⟨⟨hconnective, hcomparison⟩, hall⟩⟩
    rw [List.map_cons, List.map_cons, heach, halias, hfield]

/-- A value that is there is compared with by a filter for each owner. -/
theorem contribution_of_ofOwners
    (h : (if value.latest = .null then .ok [] else ofOwners v owners value.latest connective) =
      .ok filters) : Contribution v owners value connective filters := by
  split at h
  · next hnull =>
    obtain rfl : [] = filters := by simpa using h
    exact ⟨fun _ => rfl, fun hvalue => absurd hnull hvalue, by simp, by simp⟩
  · next hvalue =>
    obtain ⟨heach, hall⟩ := ofOwners_spec h
    exact ⟨fun hnull => absurd hnull hvalue, fun _ => heach, fun f hf => (hall f hf).1,
      fun f hf => (hall f hf).2⟩

/-- A namespaced parameter filters the owner that its field stands for. -/
theorem contribution_of_ofNamespaced {field : String}
    (hfield : v.fieldOf closure.root.entity.tag key = .ok field)
    (h : ofNamespaced v closure key value = .ok filters) :
    Contribution v (closure.resolve? closure.root field).toList value .and filters := by
  rw [ofNamespaced, hfield] at h
  exact contribution_of_ofOwners h

/-- A general parameter filters the owners of its key. -/
theorem contribution_of_ofGeneral (h : ofGeneral v closure key value = .ok filters) :
    Contribution v (generalOwners closure key) value (generalConnective closure) filters := by
  rw [ofGeneral] at h
  exact contribution_of_ofOwners h

namespace Contribution

theorem length_le (h : Contribution v owners value connective filters) :
    filters.length ≤ owners.length := by
  by_cases hvalue : value.latest = .null
  · simp [h.null hvalue]
  · have hlength := congrArg List.length (h.each hvalue)
    rw [List.length_map, List.length_map] at hlength
    exact Nat.le_of_eq hlength

/-- Each filter is on the field of an owner. -/
theorem exists_owner (h : Contribution v owners value connective filters) {f : Filter}
    (hf : f ∈ filters) :
    ∃ owner ∈ owners, owner.member.tableAlias = f.tableAlias ∧ owner.field = f.field := by
  have hvalue : value.latest ≠ .null := by
    intro hnull
    simp [h.null hnull] at hf
  have hmem := List.mem_map_of_mem (f := fun f : Filter => (f.tableAlias, f.field)) hf
  rw [h.each hvalue] at hmem
  simpa using hmem

theorem ne_nil_iff (h : Contribution v owners value connective filters) :
    filters ≠ [] ↔ value.latest ≠ .null ∧ owners ≠ [] := by
  by_cases hvalue : value.latest = .null
  · simp [h.null hvalue, hvalue]
  · have hnil : filters = [] ↔ owners = [] := by
      rw [← List.map_eq_nil_iff, h.each hvalue, List.map_eq_nil_iff]
    simp [hnil, hvalue]

theorem hasField (h : Contribution v owners value connective filters)
    (howns : ∀ owner ∈ owners, closure.Owns owner) {f : Filter} (hf : f ∈ filters) :
    closure.HasField f.tableAlias f.field := by
  obtain ⟨owner, howner, halias, hfield⟩ := h.exists_owner hf
  rw [← halias, ← hfield]
  exact (howns owner howner).hasField

theorem eq_singleton {owner : FieldOwner} (h : Contribution v [owner] value connective filters)
    (hvalue : value.latest ≠ .null) :
    ∃ comparison, filters = [⟨owner.member.tableAlias, owner.field, comparison, connective⟩] := by
  obtain ⟨f, rfl⟩ : ∃ f, filters = [f] := by
    refine List.length_eq_one_iff.1 ?_
    simpa using congrArg List.length (h.each hvalue)
  obtain ⟨halias, hfield⟩ :
      f.tableAlias = owner.member.tableAlias ∧ f.field = owner.field := by
    simpa using h.each hvalue
  have hconnective := h.connective f List.mem_cons_self
  exact ⟨f.comparison, by rw [← halias, ← hfield, ← hconnective]⟩

end Contribution

/-! ## What the filters of a parameter are like -/

/-- All filters of a parameter compare with its value, of which a list has its last one count. -/
structure SharesValue (v : Vocabulary) (value : RawValue) (filters : List Filter) : Prop where
  comparison : ∀ f ∈ filters, Comparison.ofRaw v value.latest = .ok f.comparison
  last : ∀ before last, value = .list (before ++ [last]) →
    ∀ f ∈ filters, Comparison.ofRaw v last = .ok f.comparison
  null : value.latest = .null → filters = []
  empty : value = .list [] → filters = []

/-- The filter on the one owner that a name of the root stands for: there is one exactly if there is
a value to compare with and an owner to filter. -/
structure OnSingleOwner (closure : Closure) (name : String) (value : RawValue)
    (filters : List Filter) : Prop where
  length_le : filters.length ≤ 1
  ne_nil_iff : filters ≠ [] ↔
    value.latest ≠ .null ∧ ∃ owner, closure.Resolves closure.root name owner
  resolves : ∀ f ∈ filters, ∃ owner, closure.Resolves closure.root name owner ∧
    owner.member.tableAlias = f.tableAlias ∧ owner.field = f.field

/-- The filters of a namespaced parameter. -/
structure OfNamespaced (v : Vocabulary) (closure : Closure) (key : String) (value : RawValue)
    (filters : List Filter) : Prop where
  connective : ∀ f ∈ filters, f.connective = .and
  /-- A field of the root stays on the root, whatever else is in the closure. -/
  stripped : ∃ field, v.lead closure.root.entity.tag ++ field = key ∧
    OnSingleOwner closure field value filters ∧
    (closure.root.entity.isSearchable field = true → value.latest ≠ .null →
      ∃ comparison, filters = [⟨closure.root.tableAlias, field, comparison, .and⟩])
  sharesValue : SharesValue v value filters

/-- The filters of a general parameter. -/
structure OfGeneral (v : Vocabulary) (closure : Closure) (connective : Connective) (key : String)
    (value : RawValue) (filters : List Filter) : Prop where
  connective : ∀ f ∈ filters, f.connective = connective
  /-- If there are owners of the key, there is one filter for each of them. -/
  owned : value.latest ≠ .null → (∃ member ∈ closure.members, member.entity.isSearchable key) →
    filters.map (fun f => (f.tableAlias, f.field)) =
      (closure.members.filter fun member => member.entity.isSearchable key).map
        fun member => (member.tableAlias, key)
  /-- Otherwise the key has to end in a field of a joined member, behind an underscore. -/
  elsewhere : (¬∃ member ∈ closure.members, member.entity.isSearchable key) →
    OnSingleOwner closure key value filters ∧
      ∀ f ∈ filters, f.tableAlias ≠ closure.root.tableAlias ∧
        (∃ member ∈ closure.joined, member.tableAlias = f.tableAlias ∧
          member.entity.isSearchable f.field = true) ∧
        ∃ lead, key = lead ++ "_" ++ f.field
  sharesValue : SharesValue v value filters

theorem Contribution.sharesValue (h : Contribution v owners value connective filters) :
    SharesValue v value filters where
  comparison := h.comparison
  last before last heq := by
    have hlast : value.latest = last := by simp [heq, RawValue.latest]
    exact hlast ▸ h.comparison
  null := h.null
  empty heq := h.null (by simp [heq, RawValue.latest])

theorem Contribution.onSingleOwner {name : String}
    (h : Contribution v (closure.resolve? closure.root name).toList value connective filters) :
    OnSingleOwner closure name value filters where
  length_le := by
    refine Nat.le_trans h.length_le ?_
    cases closure.resolve? closure.root name <;> simp
  ne_nil_iff := by
    rw [h.ne_nil_iff, ← Closure.isSome_resolve?_iff]
    cases closure.resolve? closure.root name <;> simp
  resolves f hf := by
    obtain ⟨owner, howner, heq⟩ := h.exists_owner hf
    exact ⟨owner, Closure.resolves_of_resolve? (Option.mem_toList.1 howner), heq⟩

theorem ofNamespaced_spec (hclass : v.classOf closure.root.entity.tag key = .namespaced)
    (h : ofNamespaced v closure key value = .ok filters) :
    OfNamespaced v closure key value filters := by
  obtain ⟨field, hfield, hkey⟩ := Vocabulary.fieldOf_of_classOf_eq hclass
  have hc := contribution_of_ofNamespaced hfield h
  refine ⟨hc.connective, ⟨field, hkey, hc.onSingleOwner, fun hroot hvalue => ?_⟩, hc.sharesValue⟩
  rw [Closure.resolve?_of_isSearchable hroot, Option.toList_some] at hc
  exact hc.eq_singleton hvalue

theorem owners_eq_nil_iff :
    closure.owners key = [] ↔ ¬∃ member ∈ closure.members, member.entity.isSearchable key := by
  simp [Closure.owners, List.filter_eq_nil_iff]

theorem generalOwners_of_owners_eq_nil (h : closure.owners key = []) :
    generalOwners closure key = (closure.resolve? closure.root key).toList := by
  simp [generalOwners, h]

theorem generalOwners_of_owners_ne_nil (h : closure.owners key ≠ []) :
    generalOwners closure key = closure.owners key := by
  unfold generalOwners
  split
  · contradiction
  · rfl

theorem ofGeneral_spec (haliases : (closure.members.map Member.tableAlias).Nodup)
    (h : ofGeneral v closure key value = .ok filters) :
    OfGeneral v closure (generalConnective closure) key value filters := by
  have hc := contribution_of_ofGeneral h
  refine ⟨hc.connective, fun hvalue howned => ?_, fun hnone => ?_, hc.sharesValue⟩
  · have hne : closure.owners key ≠ [] := fun hnil => owners_eq_nil_iff.1 hnil howned
    rw [hc.each hvalue, generalOwners_of_owners_ne_nil hne, Closure.owners, List.map_map]
    rfl
  · have hnil := owners_eq_nil_iff.2 hnone
    rw [generalOwners_of_owners_eq_nil hnil] at hc
    have hsingle := hc.onSingleOwner
    refine ⟨hsingle, fun f hf => ?_⟩
    obtain ⟨owner, hresolves, halias, hfield⟩ := hsingle.resolves f hf
    obtain ⟨hne, hlead⟩ := hresolves.of_owners_eq_nil hnil
    have howns := hresolves.owns List.mem_cons_self
    have hjoined : owner.member ∈ closure.joined :=
      (List.mem_cons.1 howns.member).resolve_left hne
    rw [← halias, ← hfield]
    refine ⟨fun heq => hne ?_, ⟨owner.member, hjoined, rfl, howns.field⟩, hlead⟩
    exact List.inj_on_of_nodup_map haliases howns.member List.mem_cons_self heq

/-! ## Fields that members have -/

theorem owns_of_mem_generalOwners {owner : FieldOwner} (h : owner ∈ generalOwners closure key) :
    closure.Owns owner := by
  by_cases hnil : closure.owners key = []
  · rw [generalOwners_of_owners_eq_nil hnil] at h
    exact Closure.owns_of_resolve?_root (Option.mem_toList.1 h)
  · rw [generalOwners_of_owners_ne_nil hnil] at h
    exact Closure.owns_of_mem_owners h

theorem hasField_of_mem_ofNamespaced
    (hclass : v.classOf closure.root.entity.tag key = .namespaced)
    (h : ofNamespaced v closure key value = .ok filters) {f : Filter} (hf : f ∈ filters) :
    closure.HasField f.tableAlias f.field := by
  obtain ⟨field, hfield, -⟩ := Vocabulary.fieldOf_of_classOf_eq hclass
  exact (contribution_of_ofNamespaced hfield h).hasField
    (fun owner howner => Closure.owns_of_resolve?_root (Option.mem_toList.1 howner)) hf

theorem hasField_of_mem_ofGeneral (h : ofGeneral v closure key value = .ok filters) {f : Filter}
    (hf : f ∈ filters) : closure.HasField f.tableAlias f.field :=
  (contribution_of_ofGeneral h).hasField (fun _ => owns_of_mem_generalOwners) hf

end Filter

end RequestPlan
