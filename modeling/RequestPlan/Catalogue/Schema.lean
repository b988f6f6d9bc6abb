import RequestPlan.Catalogue.ImpliedRelations
import RequestPlan.Schema

/-!
# The schema of a catalogue

Every entity of a catalogue has the relations declared on it, and those implied by the foreign keys
of its table under names that are not declared. Requests may use the declared fields, or else every
column but the primary key.

* `Catalogue.entityOf`: an entity of the catalogue;
* `Catalogue.schema`: the schema of the catalogue.
-/

namespace RequestPlan.Catalogue

/-- The declared relations, and the implied ones under other names. -/
def relationsOf (declared implied : List Relation) : Except Error (KeyedList Relation) :=
  let declared := Relation.byName declared
  let others := Relation.byName (implied.filter fun relation => !declared.contains relation.name)
  match declared.merge? others with
  | .ok relations => .ok relations
  | .error overlap =>
    .error (.overlappingKey overlap.key overlap.old.quoted overlap.new.quoted)

/-- The columns that requests may use unless others are declared. -/
def ordinaryColumns (table : Table) (primaryKey : String) : List String :=
  (table.columns.map Column.name).filter (· ≠ primaryKey)

/-- The entity of a table. -/
def entityOf (name : String) (table : Table) (declared implied : List Relation)
    (searchable : Option (List String)) : Except Error Entity := do
  let primaryKey ← table.singlePrimaryKey
  let relations ← relationsOf declared implied
  Entity.make name table.name primaryKey (searchable.getD (ordinaryColumns table primaryKey))
    relations none

/-- The schema of the catalogue, with relations and searchable fields declared on its entities, and
the warnings about foreign keys. -/
def schema (catalogue : Catalogue) (declared : Declarations)
    (searchable : KeyedList (List String)) : Except Error (Schema × List Warning) := do
  catalogue.checkCollection
  catalogue.checkPrimaryKeys
  catalogue.checkDeclared declared
  let (implied, warnings) ← catalogue.impliedRelations
  let entities ← catalogue.entries.mapM fun (name, table) =>
    entityOf name table ((declared.get? name).getD []) ((implied.get? name).getD [])
      (searchable.get? name)
  let schema ← Schema.make (entities.map Candidate.entity)
  return (schema, warnings)

end RequestPlan.Catalogue
