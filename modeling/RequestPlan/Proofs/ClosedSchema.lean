import RequestPlan.Proofs.ResolvedChains

/-!
# Closed schemas

A schema that was made has no relation that leads out of it. If its relations have kinds with a
meaning too, then no relation that a chain can get to stands in its way, and every list of chains
has a graph.

* `Schema.Recognises`, `Schema.exists_root_iff`: what a plan can start from;
* `Schema.Covers`: every relation of an entity can be joined;
* `Schema.isPassable_of_covers`, `Schema.exists_build_of_covers`: so can every chain from there.
-/

namespace RequestPlan

namespace Schema

variable {schema : Schema} {root : Candidate} {entity registered : Entity}

/-! ## What a plan starts from -/

/-- The name of an entity of the schema, or a description of the entity that the schema has under
its name. -/
def Recognises (schema : Schema) : Candidate → Prop
  | .other (.text name) => name ∈ schema.entities.keys
  | .other _ => False
  | .entity entity => ∃ registered, schema.entities.get? entity.name = some registered ∧
    entity.Same registered

theorem entity_eq_ok_iff {name : String} :
    schema.entity name = .ok entity ↔ schema.entities.get? name = some entity := by
  unfold Schema.entity
  cases schema.entities.get? name <;> simp

/-- A plan starts from an entity of the schema or from one that only differs from it in the order of
its relations. -/
theorem exists_same_of_root (h : schema.root root = .ok entity) :
    ∃ registered ∈ schema.entities.values, entity.Same registered := by
  unfold Schema.root at h
  split at h
  · exact ⟨entity, KeyedList.mem_values_of_get?_eq_some (entity_eq_ok_iff.1 h), .refl entity⟩
  · cases h
  · split at h
    · next registered hget =>
      split at h
      · next hsame =>
        obtain rfl := Except.ok.inj h
        exact ⟨registered, KeyedList.mem_values_of_get?_eq_some hget, hsame⟩
      · cases h
    · cases h

theorem exists_root_iff : (∃ entity, schema.root root = .ok entity) ↔ schema.Recognises root := by
  unfold Schema.root Recognises
  split
  · simp only [entity_eq_ok_iff, KeyedList.mem_keys_iff]
  · simp
  · next entity =>
    split
    · next registered hget => by_cases hsame : entity.Same registered <;> simp [hget, hsame]
    · next hget => simp [hget]

theorem kind_of_root_eq_error {e : Error} (h : schema.root root = .error e) :
    e.kind = .invalidEntity := by
  unfold Schema.root at h
  split at h
  · unfold Schema.entity at h
    split at h
    · cases h
    · obtain rfl := Except.error.inj h
      rfl
  · obtain rfl := Except.error.inj h
    rfl
  · split at h
    · split at h
      · cases h
      · obtain rfl := Except.error.inj h
        rfl
    · obtain rfl := Except.error.inj h
      rfl

/-! ## Relations that can be joined -/

/-- Every relation of the entity has a kind with a meaning and leads to an entity of the schema. -/
def Covers (schema : Schema) (entity : Entity) : Prop :=
  ∀ relation ∈ entity.relations.values,
    relation.kind.IsKnown ∧ relation.targetEntity ∈ schema.entities.keys

theorem covers_of_mem_values (hclosed : schema.IsClosed) (hkinds : schema.HasKnownKinds)
    (h : entity ∈ schema.entities.values) : schema.Covers entity :=
  fun relation hr => ⟨hkinds entity h relation hr, hclosed entity h relation hr⟩

/-- The order of relations does not matter to what they lead to. -/
theorem Covers.of_same (hsame : entity.Same registered) (h : schema.Covers registered) :
    schema.Covers entity := by
  intro relation hr
  have hperm : entity.relations.values.Perm registered.relations.values := hsame.relations.map _
  exact h relation (hperm.mem_iff.1 hr)

/-- From an entity whose relations can be joined every chain can be followed, as far as it leads. -/
theorem isPassable_of_covers (hall : ∀ other ∈ schema.entities.values, schema.Covers other)
    (h : schema.Covers entity) (names : List String) : schema.IsPassable entity names := by
  induction names generalizing entity with
  | nil => trivial
  | cons name names ih =>
    intro relation hrelation
    obtain ⟨hknown, htarget⟩ := h relation (KeyedList.mem_values_of_get?_eq_some hrelation)
    obtain ⟨next, hnext⟩ := KeyedList.mem_keys_iff.1 htarget
    exact ⟨hknown, next, hnext, ih (hall next (KeyedList.mem_values_of_get?_eq_some hnext))⟩

/-- In a closed schema whose kinds have a meaning every list of chains has a graph. -/
theorem exists_build_of_covers (hclosed : schema.IsClosed) (hkinds : schema.HasKnownKinds)
    (hroot : schema.root root = .ok entity) (requested : Option String) :
    ∃ graph, JoinGraph.build schema entity requested = .ok graph := by
  have hall : ∀ other ∈ schema.entities.values, schema.Covers other := fun _ =>
    covers_of_mem_values hclosed hkinds
  obtain ⟨registered, hregistered, hsame⟩ := exists_same_of_root hroot
  have hentity : schema.Covers entity := .of_same hsame (hall registered hregistered)
  exact JoinGraph.exists_build_iff.2 fun chain _ => isPassable_of_covers hall hentity chain

end Schema

end RequestPlan
