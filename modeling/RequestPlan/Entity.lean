import RequestPlan.Error
import RequestPlan.KeyedList
import RequestPlan.Text.SnakeCase

/-!
# Entities

An entity is a table under a name of its own: the fields that a request may use, the relations to
other entities, and the namespace tag of the parameters that address it.

* `Entity`: the descriptions, each relation under its own name;
* `Entity.make`: the check that a description is one;
* `Entity.Same`: equality of descriptions, without regard to the order of relations.
-/

namespace RequestPlan

/-- A description of an entity. -/
structure Entity where
  name : String
  tableName : String
  primaryKey : String
  searchable : NameSet
  relations : KeyedList Relation
  tag : String
  relations_named : ∀ entry ∈ relations.entries, entry.2.name = entry.1
  deriving DecidableEq

/-- Relations under their names; of two with one name the last counts. -/
def Relation.byName (relations : List Relation) : KeyedList Relation :=
  .ofList (relations.map fun relation => (relation.name, relation))

namespace Entity

/-- The entity with the given parts. Without a tag of its own it has its name in snake case. -/
def make (name tableName primaryKey : String) (searchable : List String)
    (relations : KeyedList Relation) (tag : Option String) : Except Error Entity :=
  match h : relations.entries.find? fun entry => entry.2.name ≠ entry.1 with
  | some (key, relation) => .error (.misnamedRelation name key relation)
  | none =>
    .ok
      { name, tableName, primaryKey, relations
        searchable := .ofList searchable
        tag := (tag.filter (· ≠ "")).getD (Text.snakeCase name)
        relations_named := by simpa using List.find?_eq_none.1 h }

/-- Whether requests may filter and order on the field. -/
def isSearchable (entity : Entity) (field : String) : Bool :=
  field ∈ entity.searchable

/-- The relation of the given name. -/
def relation? (entity : Entity) (name : String) : Option Relation :=
  entity.relations.get? name

/-- Two descriptions that differ at most in the order of their relations. -/
structure Same (d e : Entity) : Prop where
  name : d.name = e.name
  tableName : d.tableName = e.tableName
  primaryKey : d.primaryKey = e.primaryKey
  searchable : d.searchable = e.searchable
  relations : d.relations.SameEntries e.relations
  tag : d.tag = e.tag

instance (d e : Entity) : Decidable (Same d e) :=
  decidable_of_iff
    (d.name = e.name ∧ d.tableName = e.tableName ∧ d.primaryKey = e.primaryKey ∧
      d.searchable = e.searchable ∧ d.relations.SameEntries e.relations ∧ d.tag = e.tag)
    ⟨fun ⟨h₁, h₂, h₃, h₄, h₅, h₆⟩ => ⟨h₁, h₂, h₃, h₄, h₅, h₆⟩,
      fun ⟨h₁, h₂, h₃, h₄, h₅, h₆⟩ => ⟨h₁, h₂, h₃, h₄, h₅, h₆⟩⟩

theorem Same.refl (e : Entity) : Same e e :=
  ⟨rfl, rfl, rfl, rfl, .refl _, rfl⟩

/-- A relation found under a name has that name. -/
theorem name_of_relation?_eq_some {entity : Entity} {name : String} {relation : Relation}
    (h : entity.relation? name = some relation) : relation.name = name :=
  entity.relations_named _ (KeyedList.get?_eq_some_iff.1 h)

end Entity

end RequestPlan
