import Mathlib.Data.List.Infix
import RequestPlan.Closure
import RequestPlan.Schema

/-!
# Following relations through a schema

What the names of a relation chain mean, without joins, aliases or any order of work.

* `Path.prefixes`: the non-empty paths along a path;
* `Schema.step?`, `Schema.follow?`: the entity that a relation, or a path of relations, leads to;
* `Schema.resolved`: the longest part of a chain, from its front, that leads to an entity;
* `Schema.IsPassable`: every relation that a chain gets to can be joined.

`isPrefix_resolved_iff` says that the resolved part holds exactly the paths along the chain that
lead to an entity; `resolved_cons_of_step?` follows a chain name by name.
-/

namespace RequestPlan

/-! ## The paths along a path -/

/-- The non-empty paths along a path, the shortest first. -/
def Path.prefixes (path : Path) : List Path :=
  path.inits.tail

@[simp] theorem Path.prefixes_nil : prefixes [] = [] := rfl

theorem Path.prefixes_cons (name : String) (path : Path) :
    prefixes (name :: path) = [name] :: (prefixes path).map (name :: ·) := by
  have hinits : path.inits = [] :: prefixes path := by
    cases path <;> rfl
  rw [prefixes, List.inits_cons, List.tail_cons, hinits, List.map_cons]

theorem Path.mem_prefixes_iff {front path : Path} :
    front ∈ prefixes path ↔ front ≠ [] ∧ front <+: path := by
  have hmem : front ∈ path.inits ↔ front = [] ∨ front ∈ prefixes path := by
    cases path <;> simp [prefixes]
  rw [← List.mem_inits, hmem]
  constructor
  · intro h
    refine ⟨?_, .inr h⟩
    rintro rfl
    cases path with
    | nil => simp at h
    | cons name path => simp [prefixes_cons] at h
  · rintro ⟨hne, h | h⟩
    · exact absurd h hne
    · exact h

namespace Schema

variable {schema : Schema} {entity next : Entity} {name : String} {names : List String}

theorem target_eq_ok_iff {relation : Relation} :
    schema.target relation = .ok entity ↔
      schema.entities.get? relation.targetEntity = some entity := by
  unfold target
  cases schema.entities.get? relation.targetEntity <;> simp

/-- The entity that the relation of the given name leads to. -/
def step? (schema : Schema) (entity : Entity) (name : String) : Option Entity :=
  (entity.relation? name).bind fun relation => schema.entities.get? relation.targetEntity

/-- The entity that a path leads to, relation by relation. -/
def follow? (schema : Schema) : Entity → Path → Option Entity
  | entity, [] => some entity
  | entity, name :: path => (schema.step? entity name).bind fun next => schema.follow? next path

@[simp] theorem follow?_nil (schema : Schema) (entity : Entity) :
    schema.follow? entity [] = some entity := rfl

theorem follow?_cons (schema : Schema) (entity : Entity) (name : String) (path : Path) :
    schema.follow? entity (name :: path) =
      (schema.step? entity name).bind fun next => schema.follow? next path := rfl

theorem follow?_append (schema : Schema) (entity : Entity) (front back : Path) :
    schema.follow? entity (front ++ back) =
      (schema.follow? entity front).bind fun next => schema.follow? next back := by
  induction front generalizing entity with
  | nil => rfl
  | cons name front ih =>
    rw [List.cons_append, follow?_cons, follow?_cons]
    cases schema.step? entity name with
    | none => rfl
    | some next => exact ih next

/-- One more relation at the end of a path. -/
theorem follow?_concat (schema : Schema) (entity : Entity) (path : Path) (name : String) :
    schema.follow? entity (path ++ [name]) =
      (schema.follow? entity path).bind fun next => schema.step? next name := by
  simp only [follow?_append, follow?_cons, follow?_nil, Option.bind_fun_some]

theorem step?_of_relation? {relation : Relation} (h : entity.relation? name = some relation) :
    schema.step? entity name = schema.entities.get? relation.targetEntity := by
  simp [step?, h]

theorem step?_eq_none_of_relation? (h : entity.relation? name = none) :
    schema.step? entity name = none := by
  simp [step?, h]

/-! ## The resolved part of a chain -/

/-- The longest part of a chain, from its front, that leads to an entity. -/
def resolved (schema : Schema) (entity : Entity) (names : List String) : Path :=
  (names.inits.reverse.find? fun path => (schema.follow? entity path).isSome).getD []

theorem resolved_nil (schema : Schema) (entity : Entity) : schema.resolved entity [] = [] := rfl

theorem resolved_cons_of_step?_eq_none (h : schema.step? entity name = none) :
    schema.resolved entity (name :: names) = [] := by
  have hnone : names.inits.reverse.find?
      ((fun path => (schema.follow? entity path).isSome) ∘ (name :: ·)) = none := by
    simp [List.find?_eq_none, follow?_cons, h]
  rw [resolved, List.inits_cons, List.reverse_cons, ← List.map_reverse, List.find?_append,
    List.find?_map, hnone]
  rfl

theorem resolved_cons_of_step? (names : List String) (h : schema.step? entity name = some next) :
    schema.resolved entity (name :: names) = name :: schema.resolved next names := by
  have hstep : (fun path => (schema.follow? entity path).isSome) ∘ (name :: ·) =
      fun path => (schema.follow? next path).isSome := by
    funext path
    simp [follow?_cons, h]
  -- The empty part always leads somewhere, so that the search along `names` finds something.
  obtain ⟨path, hpath⟩ := Option.isSome_iff_exists.1 (List.find?_isSome.2
    ⟨[], by simp, by simp⟩ :
      (names.inits.reverse.find? fun path => (schema.follow? next path).isSome).isSome)
  rw [resolved, resolved, List.inits_cons, List.reverse_cons, ← List.map_reverse,
    List.find?_append, List.find?_map, hstep, hpath]
  rfl

/-- The paths along the resolved part of a chain are those along the chain that lead to an
entity. -/
theorem isPrefix_resolved_iff {path : Path} :
    path <+: schema.resolved entity names ↔
      path <+: names ∧ (schema.follow? entity path).isSome := by
  induction names generalizing entity path with
  | nil =>
    rw [resolved_nil, List.prefix_nil]
    constructor
    · rintro rfl
      simp
    · exact fun h => h.1
  | cons name names ih =>
    cases path with
    | nil => simp
    | cons first path =>
      cases hstep : schema.step? entity name with
      | none =>
        rw [resolved_cons_of_step?_eq_none hstep, List.cons_prefix_cons]
        constructor
        · intro h
          simp at h
        · rintro ⟨⟨rfl, -⟩, h⟩
          simp [follow?_cons, hstep] at h
      | some next =>
        rw [resolved_cons_of_step? names hstep, List.cons_prefix_cons, List.cons_prefix_cons, ih]
        constructor
        · rintro ⟨rfl, hpath, h⟩
          exact ⟨⟨rfl, hpath⟩, by simpa [follow?_cons, hstep] using h⟩
        · rintro ⟨⟨rfl, hpath⟩, h⟩
          exact ⟨rfl, hpath, by simpa [follow?_cons, hstep] using h⟩

theorem resolved_isPrefix (schema : Schema) (entity : Entity) (names : List String) :
    schema.resolved entity names <+: names :=
  (isPrefix_resolved_iff.1 (List.prefix_refl _)).1

/-- The resolved part of a chain leads as far as it says. -/
@[simp] theorem resolved_resolved (schema : Schema) (entity : Entity) (names : List String) :
    schema.resolved entity (schema.resolved entity names) = schema.resolved entity names := by
  have hself : schema.resolved entity names <+:
      schema.resolved entity (schema.resolved entity names) :=
    isPrefix_resolved_iff.2
      ⟨List.prefix_refl _, (isPrefix_resolved_iff.1 (List.prefix_refl _)).2⟩
  exact (resolved_isPrefix schema entity _).eq_of_length_le hself.length_le

/-- A chain breaks off at the first name that is no relation. -/
theorem resolved_append_of_relation?_eq_none {front : Path} {last : Entity}
    (hfront : schema.follow? entity front = some last) (hname : last.relation? name = none)
    (back : List String) : schema.resolved entity (front ++ name :: back) = front := by
  induction front generalizing entity with
  | nil =>
    obtain rfl : entity = last := by simpa using hfront
    exact resolved_cons_of_step?_eq_none (step?_eq_none_of_relation? hname)
  | cons first front ih =>
    rw [follow?_cons, Option.bind_eq_some_iff] at hfront
    obtain ⟨next, hstep, hfront⟩ := hfront
    rw [List.cons_append, resolved_cons_of_step? _ hstep, ih hfront]

/-! ## Chains that can be joined -/

/-- Every relation that the chain gets to has a kind with a meaning and leads to an entity of the
schema. -/
def IsPassable (schema : Schema) : Entity → List String → Prop
  | _, [] => True
  | entity, name :: names =>
    ∀ relation, entity.relation? name = some relation →
      relation.kind.IsKnown ∧
        ∃ next, schema.entities.get? relation.targetEntity = some next ∧
          schema.IsPassable next names

/-- A chain that can be joined can be joined up to any of its names. -/
theorem IsPassable.of_isPrefix {front : List String} (h : schema.IsPassable entity names)
    (hfront : front <+: names) : schema.IsPassable entity front := by
  induction front generalizing entity names with
  | nil => trivial
  | cons name front ih =>
    cases names with
    | nil => simp at hfront
    | cons first names =>
      obtain ⟨rfl, hprefix⟩ := List.cons_prefix_cons.1 hfront
      intro relation hrelation
      obtain ⟨hknown, next, hnext, hrest⟩ := h relation hrelation
      exact ⟨hknown, next, hnext, ih hrest hprefix⟩

end Schema

end RequestPlan
