import RequestPlan.Proofs.FilterContributions

/-!
# Larger closures

With more members at the end of a closure a name may come to stand for another owner: a new member
has the field under its own name, or a shorter relation name leads on now. But the owners that it
may stand for only become more, and so a name that stood for one still does.

* `Closure.Resolves.mono`: owners that a name may stand for remain such owners;
* `Closure.isSome_resolve?_mono`: the search still finds one;
* `Closure.length_owners_mono`, `Filter.length_generalOwners_mono`: a key addresses no fewer owners;
* `Filter.length_mono_of_ofParameter`: a parameter makes no fewer filters.
-/

namespace RequestPlan

namespace Closure

variable {closure longer : Closure} {member next : Member} {name field : String} {path : Path}
  {owner : FieldOwner}

theorem root_eq_of_isPrefix (h : closure.members <+: longer.members) :
    closure.root = longer.root :=
  (List.cons_prefix_cons.1 h).1

theorem member?_mono (h : closure.members <+: longer.members)
    (hm : closure.member? path = some member) : longer.member? path = some member :=
  h.find?_eq_some hm

theorem related?_mono (h : closure.members <+: longer.members)
    (hr : closure.related? member name = some next) : longer.related? member name = some next := by
  rw [related?, Option.ite_none_right_eq_some] at hr ⊢
  exact ⟨hr.1, member?_mono h hr.2⟩

/-- Every descent that leads to an owner is there in the larger closure too. -/
theorem Resolves.mono (h : closure.members <+: longer.members)
    (hr : closure.Resolves member field owner) : longer.Resolves member field owner := by
  induction hr with
  | own hown => exact .own hown
  | same hrelated _ ih => exact .same (related?_mono h hrelated) ih
  | along hrelated _ ih => exact .along (related?_mono h hrelated) ih

theorem isSome_resolve?_mono (h : closure.members <+: longer.members)
    (hs : (closure.resolve? closure.root field).isSome) :
    (longer.resolve? longer.root field).isSome := by
  obtain ⟨owner, howner⟩ := isSome_resolve?_iff.1 hs
  rw [root_eq_of_isPrefix h] at howner
  exact isSome_resolve?_iff.2 ⟨owner, howner.mono h⟩

theorem length_toList_resolve?_mono (h : closure.members <+: longer.members) (field : String) :
    (closure.resolve? closure.root field).toList.length ≤
      (longer.resolve? longer.root field).toList.length := by
  cases hc : closure.resolve? closure.root field with
  | none => simp
  | some owner =>
    have hsome : (closure.resolve? closure.root field).isSome := by simp [hc]
    obtain ⟨owner', howner⟩ := Option.isSome_iff_exists.1 (isSome_resolve?_mono h hsome)
    simp [howner]

theorem length_owners_mono (h : closure.members <+: longer.members) (field : String) :
    (closure.owners field).length ≤ (longer.owners field).length := by
  rw [owners, owners, List.length_map, List.length_map]
  exact (h.sublist.filter _).length_le

end Closure

namespace Filter

variable {v : Vocabulary} {closure longer : Closure} {key : String} {value : RawValue}
  {connective connective' : Connective} {owners owners' : List FieldOwner}
  {filters filters' : List Filter}

/-- A key that had owners of its own still has all of them. One that had none stands for a single
owner at most, and for one if it did before, unless it has come to have owners of its own. -/
theorem length_generalOwners_mono (h : closure.members <+: longer.members) (key : String) :
    (generalOwners closure key).length ≤ (generalOwners longer key).length := by
  have howners := Closure.length_owners_mono h key
  have hresolve := Closure.length_toList_resolve?_mono h key
  by_cases hnil : closure.owners key = []
  · rw [generalOwners_of_owners_eq_nil hnil]
    by_cases hnil' : longer.owners key = []
    · rwa [generalOwners_of_owners_eq_nil hnil']
    · rw [generalOwners_of_owners_ne_nil hnil']
      calc (closure.resolve? closure.root key).toList.length
        _ ≤ 1 := Option.length_toList_le
        _ ≤ (longer.owners key).length := List.length_pos_iff.2 hnil'
  · have hnil' : longer.owners key ≠ [] :=
      List.length_pos_iff.1 (Nat.lt_of_lt_of_le (List.length_pos_iff.2 hnil) howners)
    rwa [generalOwners_of_owners_ne_nil hnil, generalOwners_of_owners_ne_nil hnil']

/-- Of two lists of owners that one value filters, the longer one has no fewer filters. -/
theorem Contribution.length_mono (h : Contribution v owners value connective filters)
    (h' : Contribution v owners' value connective' filters')
    (howners : owners.length ≤ owners'.length) : filters.length ≤ filters'.length := by
  by_cases hvalue : value.latest = .null
  · simp [h.null hvalue]
  · have hlength := congrArg List.length (h.each hvalue)
    have hlength' := congrArg List.length (h'.each hvalue)
    simp only [List.length_map] at hlength hlength'
    omega

/-- The filters of a parameter of any class; a control parameter has none. -/
def ofParameter (v : Vocabulary) (closure : Closure) (key : String) (value : RawValue) :
    Except Error (List Filter) :=
  match v.classOf closure.root.entity.tag key with
  | .control => .ok []
  | .namespaced => ofNamespaced v closure key value
  | .general => ofGeneral v closure key value

/-- A parameter makes no fewer filters if the closure is larger. -/
theorem length_mono_of_ofParameter (hm : closure.members <+: longer.members)
    (h : ofParameter v closure key value = .ok filters)
    (h' : ofParameter v longer key value = .ok filters') : filters.length ≤ filters'.length := by
  rw [ofParameter] at h h'
  have hroot := Closure.root_eq_of_isPrefix hm
  rw [← hroot] at h'
  cases hclass : v.classOf closure.root.entity.tag key with
  | control =>
    rw [hclass] at h
    obtain rfl : [] = filters := by simpa using h
    simp
  | namespaced =>
    rw [hclass] at h h'
    obtain ⟨field, hfield, -⟩ := Vocabulary.fieldOf_of_classOf_eq hclass
    exact (contribution_of_ofNamespaced hfield h).length_mono
      (contribution_of_ofNamespaced (hroot ▸ hfield) h')
      (Closure.length_toList_resolve?_mono hm field)
  | general =>
    rw [hclass] at h h'
    exact (contribution_of_ofGeneral h).length_mono (contribution_of_ofGeneral h')
      (length_generalOwners_mono hm key)

end Filter

end RequestPlan
