import RequestPlan.KeyedList
import RequestPlan.Table

/-!
# Catalogues

A catalogue gives the table of every entity that a schema is to have. Before a schema is made of it,
its tables are checked, and so are the relations declared on its entities.

* `Catalogue`: the tables by entity, and those without one;
* `Declarations`: the relations declared on entities;
* `Catalogue.checkCollection`, `checkPrimaryKeys`, `checkDistinct`: the checks of the tables;
* `Catalogue.checkDeclared`: the check of the declared relations.
-/

namespace RequestPlan

/-- The tables of the entities, by entity name, and the other tables that there are. A schema knows
nothing of these, but foreign keys may refer to them. -/
structure Catalogue extends KeyedList Table where
  unmapped : List Table

/-- The relations declared on entities, by entity name. Those of an entity are gone through twice,
once when they are checked and once when the entity is made, so they are a list: a sequence that can
be gone through only once would be empty the second time. -/
abbrev Declarations := KeyedList (List Relation)

namespace Catalogue

/-- All tables that there are: those of the entities first, then the other ones. -/
def tables (catalogue : Catalogue) : List Table :=
  catalogue.values ++ catalogue.unmapped

/-- Fails unless all tables come from one collection. -/
def checkCollection (catalogue : Catalogue) : Except Error Unit :=
  match catalogue.values with
  | [] => .ok ()
  | first :: others =>
    if ∀ table ∈ others, table.collection = first.collection then .ok ()
    else .error .severalCollections

/-- Fails unless every table has a primary key of a single column. -/
def checkPrimaryKeys (catalogue : Catalogue) : Except Error Unit :=
  match catalogue.values.filter fun table => ¬ table.HasSinglePrimaryKey with
  | [] => .ok ()
  | tables => .error (.missingPrimaryKey (.ofList (tables.map Table.fullName)))

/-- The first table that an earlier entity has too, with the two entities. -/
def clash? (earlier : List (String × Table)) :
    List (String × Table) → Option (Table × String × String)
  | [] => none
  | (entity, table) :: rest =>
    match earlier.find? fun entry => table.IsSame entry.2 with
    | some entry => some (table, entity, entry.1)
    | none => clash? (earlier ++ [(entity, table)]) rest

/-- Fails if two entities have one table. -/
def checkDistinct (catalogue : Catalogue) : Except Error Unit :=
  match clash? [] catalogue.entries with
  | none => .ok ()
  | some (table, entity, earlier) => .error (.tableTaken table.fullName entity earlier)

/-- Fails unless the table has a column with the key; `entity` and `relation` are for the report. -/
def checkColumn (entity : String) (relation : Relation) (table : Table) (key : String) :
    Except Error Unit :=
  if table.hasKey key then .ok ()
  else .error (.relationToUnknownColumn entity relation.name key table.fullName)

/-- The table with the foreign key of a relation, and the table that it refers to. -/
def tablesOf (source target : Table) (relation : Relation) : Except Error (Table × Table) :=
  match relation.kind with
  | .toOne => .ok (source, target)
  | .toMany => .ok (target, source)
  | .unknown kind => .error (.unknownKind kind relation)

/-- Fails unless a relation declared on an entity leads to an entity and uses columns of the tables
at its two ends. -/
def checkRelation (catalogue : Catalogue) (entity : String) (source : Table) (relation : Relation) :
    Except Error Unit :=
  match catalogue.get? relation.targetEntity with
  | none => .error (.relationToUnknownEntity entity relation.name relation.targetEntity)
  | some target => do
    let (keyTable, referencedTable) ← tablesOf source target relation
    checkColumn entity relation keyTable relation.foreignKey
    match relation.referencedKey with
    | some key => checkColumn entity relation referencedTable key
    | none => return ()

/-- Fails unless the relations are declared on entities and each of them passes `checkRelation`. -/
def checkDeclared (catalogue : Catalogue) (declared : Declarations) : Except Error Unit :=
  declared.entries.forM fun (entity, relations) =>
    match catalogue.get? entity with
    | none => .error (.relationsOnUnknownEntity entity relations)
    | some source => relations.forM (catalogue.checkRelation entity source)

end Catalogue

end RequestPlan
