import RequestPlan.FieldOwner

/-!
# What a field name stands for

The search for the owner of a field goes from member to member along joined relations. What the
search finds is related to where it began by `Closure.Resolves`, which forgets the order in which
the descents are tried.

* `Closure.Owns`, `Closure.HasField`: the searchable fields of members;
* `Closure.Resolves`: an owner that a name may stand for, seen from a member;
* `Closure.resolves_of_resolve?`, `Closure.isSome_resolve?_iff`: the search finds such owners only,
  and one whenever there are any;
* `Closure.Resolves.owns`, `Closure.Resolves.mem_members`: what is found is a field of a member;
* `Closure.Resolves.own_or_descend`, `Closure.Resolves.field_eq_or_suffix`: how far it can be from
  where the search began, and what can be left of the name there.
-/

namespace RequestPlan

namespace Closure

/-- The member is in the closure and has the field among its searchable ones. -/
structure Owns (closure : Closure) (owner : FieldOwner) : Prop where
  member : owner.member ∈ closure.members
  field : owner.member.entity.isSearchable owner.field = true

/-- A member under the alias has the field among its searchable ones. -/
def HasField (closure : Closure) (tableAlias field : String) : Prop :=
  ∃ member ∈ closure.members, member.tableAlias = tableAlias ∧
    member.entity.isSearchable field = true

/-- An owner that a name may stand for, seen from a member. -/
inductive Resolves (closure : Closure) : Member → String → FieldOwner → Prop where
  /-- The name is that of a searchable field. -/
  | own {member : Member} {field : String} (h : member.entity.isSearchable field = true) :
      Resolves closure member field ⟨member, field⟩
  /-- The name is that of a joined relation too, and stands for an owner seen from there. -/
  | same {member next : Member} {field : String} {owner : FieldOwner}
      (hr : closure.related? member field = some next) (h : Resolves closure next field owner) :
      Resolves closure member field owner
  /-- The name starts with that of a joined relation. -/
  | along {member next : Member} {name rest : String} {owner : FieldOwner}
      (hr : closure.related? member name = some next) (h : Resolves closure next rest owner) :
      Resolves closure member (name ++ "_" ++ rest) owner

variable {closure : Closure} {member : Member} {field : String} {owner : FieldOwner}

theorem Owns.hasField (h : closure.Owns owner) :
    closure.HasField owner.member.tableAlias owner.field :=
  ⟨owner.member, h.member, rfl, h.field⟩

theorem Resolves.of_mem_descents {next : Member} {name rest : String}
    (hd : (name, rest) ∈ descents field) (hr : closure.related? member name = some next)
    (h : closure.Resolves next rest owner) : closure.Resolves member field owner := by
  rcases mem_descents.1 hd with ⟨rfl, rfl⟩ | rfl
  · exact .same hr h
  · exact .along hr h

/-- **The search finds nothing but owners that the name may stand for.** -/
theorem resolves_of_resolve? (h : closure.resolve? member field = some owner) :
    closure.Resolves member field owner := by
  induction member using closure.descent_induction generalizing field with
  | step member ih =>
    rw [resolve?_eq] at h
    split at h
    · next hown =>
      obtain rfl := Option.some.inj h
      exact .own hown
    · obtain ⟨⟨name, rest⟩, hd, hfound⟩ := List.exists_of_findSome?_eq_some h
      obtain ⟨next, hr, hnext⟩ := Option.bind_eq_some_iff.1 hfound
      exact .of_mem_descents hd hr (ih name next hr hnext)

theorem isSome_resolve?_of_mem_descents {next : Member} {name rest : String}
    (hd : (name, rest) ∈ descents field) (hr : closure.related? member name = some next)
    (h : (closure.resolve? next rest).isSome) : (closure.resolve? member field).isSome := by
  rw [resolve?_eq]
  split
  · rfl
  · rw [List.findSome?_isSome_iff]
    exact ⟨(name, rest), hd, by simpa [hr] using h⟩

/-- The search finds an owner whenever the name may stand for one. -/
theorem isSome_resolve?_iff :
    (closure.resolve? member field).isSome ↔ ∃ owner, closure.Resolves member field owner := by
  constructor
  · intro h
    obtain ⟨owner, howner⟩ := Option.isSome_iff_exists.1 h
    exact ⟨owner, resolves_of_resolve? howner⟩
  · rintro ⟨owner, h⟩
    induction h with
    | own h => rw [resolve?_of_isSearchable h, Option.isSome_some]
    | same hr _ ih => exact isSome_resolve?_of_mem_descents (mem_descents.2 (.inl ⟨rfl, rfl⟩)) hr ih
    | along hr _ ih => exact isSome_resolve?_of_mem_descents (mem_descents.2 (.inr rfl)) hr ih

namespace Resolves

theorem isSearchable (h : closure.Resolves member field owner) :
    owner.member.entity.isSearchable owner.field = true := by
  induction h with
  | own h => exact h
  | same _ _ ih => exact ih
  | along _ _ ih => exact ih

theorem mem_members (h : closure.Resolves member field owner) (hm : member ∈ closure.members) :
    owner.member ∈ closure.members := by
  induction h with
  | own => exact hm
  | same hr _ ih => exact ih (length_path_of_related?_eq_some hr).2
  | along hr _ ih => exact ih (length_path_of_related?_eq_some hr).2

/-- The owner of a name is a member with a field of its own. -/
theorem owns (h : closure.Resolves member field owner) (hm : member ∈ closure.members) :
    closure.Owns owner :=
  ⟨h.mem_members hm, h.isSearchable⟩

theorem length_path_le (h : closure.Resolves member field owner) :
    member.path.length ≤ owner.member.path.length := by
  induction h with
  | own => exact Nat.le_refl _
  | same hr _ ih =>
    have := (length_path_of_related?_eq_some hr).1
    omega
  | along hr _ ih =>
    have := (length_path_of_related?_eq_some hr).1
    omega

/-- Only the descents along a prefix change the name, and they cut it after an underscore. -/
theorem field_eq_or_suffix (h : closure.Resolves member field owner) :
    owner.field = field ∨ ∃ lead, field = lead ++ "_" ++ owner.field := by
  induction h with
  | own => exact .inl rfl
  | same _ _ ih => exact ih
  | @along _ _ name rest owner _ _ ih =>
    right
    rcases ih with heq | ⟨lead, rfl⟩
    · exact ⟨name, by rw [heq]⟩
    · refine ⟨name ++ "_" ++ lead, ?_⟩
      simp only [String.append_assoc]

/-- The owner is the member that the search began at, or has a longer path. -/
theorem own_or_descend (h : closure.Resolves member field owner) :
    owner = ⟨member, field⟩ ∨ member.path.length < owner.member.path.length := by
  cases h with
  | own => exact .inl rfl
  | same hr h =>
    have := (length_path_of_related?_eq_some hr).1
    have := h.length_path_le
    omega
  | along hr h =>
    have := (length_path_of_related?_eq_some hr).1
    have := h.length_path_le
    omega

end Resolves

theorem owns_of_resolve?_root (h : closure.resolve? closure.root field = some owner) :
    closure.Owns owner :=
  (resolves_of_resolve? h).owns List.mem_cons_self

/-- A name that no member owns leads away from the root, to a field that it ends with behind an
underscore. -/
theorem Resolves.of_owners_eq_nil (h : closure.Resolves closure.root field owner)
    (hnone : closure.owners field = []) :
    owner.member ≠ closure.root ∧ ∃ lead, field = lead ++ "_" ++ owner.field := by
  have howns := h.owns List.mem_cons_self
  -- An owner of the name as it stands would be among those that there are none of.
  have hne : owner.field ≠ field := by
    rintro rfl
    have hmem : (⟨owner.member, owner.field⟩ : FieldOwner) ∈ closure.owners owner.field :=
      List.mem_map.2 ⟨_, List.mem_filter.2 ⟨howns.member, howns.field⟩, rfl⟩
    simp [hnone] at hmem
  constructor
  · intro hroot
    rcases h.own_or_descend with rfl | hlt
    · exact hne rfl
    · simp [hroot] at hlt
  · exact h.field_eq_or_suffix.resolve_left hne

theorem owns_of_mem_owners (h : owner ∈ closure.owners field) : closure.Owns owner := by
  obtain ⟨member, hm, rfl⟩ := List.mem_map.1 h
  obtain ⟨hmem, hown⟩ := List.mem_filter.1 hm
  exact ⟨hmem, hown⟩

end Closure

end RequestPlan
