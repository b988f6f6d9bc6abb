import RequestPlan.Entity

/-!
# Schemas

A schema is the keyed list of its entities. Making one checks that no name occurs twice and that no
relation leads out of it.

* `Candidate`: what may be given where an entity is expected;
* `Schema.make`: the schema of the given candidates;
* `Schema.entity`, `Schema.target`, `Schema.root`: look-ups that fail with a cause;
* `Schema.IsClosed`: no relation leads out of the schema.
-/

namespace RequestPlan

/-- What is given where an entity is expected: an entity, or some other value. -/
inductive Candidate where
  | entity (entity : Entity)
  | other (value : RawValue)
  deriving DecidableEq

/-- The entities of a schema by name. -/
structure Schema where
  entities : KeyedList Entity
  deriving DecidableEq

namespace Schema

/-- The schema of the given entities, unchecked; of two with one name the last counts. -/
def ofEntities (entities : List Entity) : Schema :=
  ⟨.ofList (entities.map fun entity => (entity.name, entity))⟩

/-- The entities with one more candidate, which must be an entity with a new name. -/
def register (known : KeyedList Entity) : Candidate → Except Error (KeyedList Entity)
  | .other value => .error (.notAnEntity value)
  | .entity entity =>
    if known.contains entity.name then .error (.duplicateEntity entity.name)
    else .ok (known.insert entity.name entity)

/-- The first relation that leads out of the entities, with its source. -/
def stray? (entities : KeyedList Entity) : Option (Entity × Relation) :=
  entities.values.findSome? fun entity =>
    (entity.relations.values.find? fun relation => !entities.contains relation.targetEntity).map
      fun relation => (entity, relation)

/-- The schema of the given candidates. -/
def make (candidates : List Candidate) : Except Error Schema := do
  let entities ← candidates.foldlM register ∅
  match stray? entities with
  | some (entity, relation) =>
    .error (.relationLeavesSchema entity.name relation.name relation.targetEntity)
  | none => .ok ⟨entities⟩

/-- The entity of the given name. -/
def entity (schema : Schema) (name : String) : Except Error Entity :=
  match schema.entities.get? name with
  | some entity => .ok entity
  | none => .error (.unknownEntity name (.ofList schema.entities.keys))

/-- The entity that a relation leads to. -/
def target (schema : Schema) (relation : Relation) : Except Error Entity :=
  match schema.entities.get? relation.targetEntity with
  | some entity => .ok entity
  | none => .error (.danglingRelation relation)

/-- The entity that a plan starts from: a name, or an entity that the schema has under its name. -/
def root (schema : Schema) : Candidate → Except Error Entity
  | .other (.text name) => schema.entity name
  | .other value => .error (.rootNotAnEntity value)
  | .entity entity =>
    match schema.entities.get? entity.name with
    | some registered =>
      if entity.Same registered then .ok entity else .error (.rootNotRegistered entity.name)
    | none => .error (.rootNotRegistered entity.name)

/-- No relation leads out of the schema. -/
def IsClosed (schema : Schema) : Prop :=
  ∀ entity ∈ schema.entities.values, ∀ relation ∈ entity.relations.values,
    relation.targetEntity ∈ schema.entities.keys

/-- Every relation has a kind with a meaning. -/
def HasKnownKinds (schema : Schema) : Prop :=
  ∀ entity ∈ schema.entities.values, ∀ relation ∈ entity.relations.values, relation.kind.IsKnown

theorem stray?_eq_none_iff {entities : KeyedList Entity} :
    stray? entities = none ↔ IsClosed ⟨entities⟩ := by
  simp [stray?, IsClosed, List.findSome?_eq_none_iff, KeyedList.contains_iff]

/-- A schema that was made is closed. -/
theorem isClosed_of_make_eq_ok {candidates : List Candidate} {schema : Schema}
    (h : make candidates = .ok schema) : schema.IsClosed := by
  simp only [make] at h
  cases hr : candidates.foldlM register ∅ with
  | error e => simp [hr, bind, Except.bind] at h
  | ok entities =>
    simp only [hr, bind, Except.bind] at h
    split at h
    · cases h
    · next hs =>
      cases h
      exact stray?_eq_none_iff.1 hs

end Schema

end RequestPlan
