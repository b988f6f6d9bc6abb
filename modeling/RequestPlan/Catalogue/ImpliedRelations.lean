import RequestPlan.Catalogue.Basic
import RequestPlan.Text.SnakeCase

/-!
# Relations implied by foreign keys

A foreign key of a single column implies a to-one relation, named after its column without the
ending `_id`, or after the entity it leads to. Keys that lead to a table without an entity, keys
whose name is already in use and keys of several columns imply none, and a warning says so. A
reference that leads to no table at all, or to no column of its table, makes everything fail.

* `impliedName`: the name of an implied relation;
* `Warning`: what is reported of keys that imply no relation;
* `Catalogue.resolve`: the column that a column of a foreign key refers to;
* `Implied`, `Catalogue.impliedBy`: what the keys of one table imply;
* `Catalogue.impliedRelations`: what the keys of all tables imply.
-/

namespace RequestPlan

/-- The ending of a column name that the name of its relation goes without. -/
def keyEnding : List Char := "_id".toList

/-- The name of the relation that a foreign key implies: its column without the ending, if something
is left then, or else the entity in snake case. -/
def impliedName (column entity : String) : String :=
  let letters := column.toList
  if keyEnding.isSuffixOf letters ∧ keyEnding.length < letters.length then
    String.ofList (letters.take (letters.length - keyEnding.length))
  else Text.snakeCase entity

/-- What is reported of foreign keys that imply no relation. -/
inductive Warning where
  | outsideSchema (column table referenced : String)
  | nameTaken (column table relation : String)
  | compositeKeys (count : Nat)
  deriving DecidableEq, Repr

/-- The report of a warning. -/
def Warning.message : Warning → String
  | outsideSchema column table referenced =>
    s!"Ignored foreign key {column} of table {table}, which references table {referenced} " ++
      "outside of the schema."
  | nameTaken column table relation =>
    s!"Ignored foreign key {column} of table {table}: relation name {relation} is already taken."
  | compositeKeys count =>
    s!"Ignored {count} relations implied by composite foreign keys. We currently do not support " ++
      "relations with multiple foreign key columns."

/-- What the foreign keys of a table imply: relations, warnings, and a number of keys of several
columns. -/
structure Implied where
  relations : List Relation
  warnings : List Warning
  composites : Nat
  deriving DecidableEq

namespace Catalogue

/-- The table that a reference leads to. -/
def table? (catalogue : Catalogue) (reference : ColumnReference) : Option Table :=
  catalogue.tables.find? fun table => table.IsReferenced reference

/-- The column that a column of a foreign key of the table refers to, with its table. -/
def resolve (catalogue : Catalogue) (source : Table) (key : KeyColumn) :
    Except Error (Table × Column) :=
  let { table, columnKey, .. } := key.reference
  match catalogue.table? key.reference with
  | none => .error (.keyToUnknownTable source.name key.column.name table columnKey)
  | some target =>
    match target.column? columnKey with
    | none => .error (.keyToUnknownColumn source.name s!"{table}.{columnKey}" target.name columnKey)
    | some referenced => .ok (target, referenced)

/-- The entity that has the table. -/
def entity? (catalogue : Catalogue) (table : Table) : Option String :=
  (catalogue.entries.find? fun entry => entry.2.IsSame table).map Prod.fst

/-- The key that a relation to the column names: none for the primary key of the table. -/
def referencedKey (target : Table) (column : String) : Except Error (Option String) :=
  target.singlePrimaryKey.map fun primaryKey => if column = primaryKey then none else some column

/-- What is implied when the key of a single column, with the column that it refers to, is added to
the keys before it. -/
def addSingle (catalogue : Catalogue) (source : Table) (implied : Implied) (column : Column)
    (target : Table) (referenced : Column) : Except Error Implied :=
  match catalogue.entity? target with
  | none =>
    let warning := Warning.outsideSchema column.name source.fullName target.fullName
    .ok { implied with warnings := implied.warnings ++ [warning] }
  | some entity =>
    let name := impliedName column.name entity
    if name ∈ implied.relations.map Relation.name then
      let warning := Warning.nameTaken column.name source.fullName name
      .ok { implied with warnings := implied.warnings ++ [warning] }
    else
      (referencedKey target referenced.name).map fun referencedKey =>
        let relation : Relation := ⟨name, .toOne, column.name, entity, referencedKey⟩
        { implied with relations := implied.relations ++ [relation] }

/-- What is implied when a foreign key is added to the keys before it. All of its columns are
resolved, also where there are several. -/
def addKey (catalogue : Catalogue) (source : Table) (implied : Implied) (key : ForeignKey) :
    Except Error Implied := do
  match ← key.columns.mapM (catalogue.resolve source) with
  | [(target, referenced)] => catalogue.addSingle source implied key.first.column target referenced
  | _ => return { implied with composites := implied.composites + 1 }

/-- What the foreign keys of a table imply. -/
def impliedBy (catalogue : Catalogue) (source : Table) : Except Error Implied :=
  source.foreignKeys.foldlM (catalogue.addKey source) ⟨[], [], 0⟩

/-- The warning about keys of several columns, if there are any. -/
def compositeWarning (count : Nat) : List Warning :=
  if count = 0 then [] else [.compositeKeys count]

/-- What the foreign keys of all tables imply: the relations of each entity, and the warnings. -/
def impliedRelations (catalogue : Catalogue) :
    Except Error (KeyedList (List Relation) × List Warning) := do
  catalogue.checkDistinct
  let implied ← catalogue.entries.mapM fun (entity, table) => do
    return (entity, ← catalogue.impliedBy table)
  let composites := implied.foldl (fun count entry => count + entry.2.composites) 0
  return (.ofList (implied.map fun entry => (entry.1, entry.2.relations)),
    implied.flatMap (fun entry => entry.2.warnings) ++ compositeWarning composites)

end Catalogue

end RequestPlan
