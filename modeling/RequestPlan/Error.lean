import RequestPlan.NameSet
import RequestPlan.RawValue
import RequestPlan.Relation

/-!
# Causes of failure

Everything that can go wrong, from building a schema to compiling a request, with the text that
reports it.

* `Error`: the causes;
* `Error.kind`: the family a cause belongs to;
* `Error.message`: its report.
-/

namespace RequestPlan

/-- A cause of failure. -/
inductive Error where
  /-- A relation of the entity stands under a name that is not its own. -/
  | misnamedRelation (entity name : String) (relation : Relation)
  /-- Something else than an entity was given for a schema. -/
  | notAnEntity (value : RawValue)
  /-- Two entities of a schema have one name. -/
  | duplicateEntity (name : String)
  /-- A relation of a schema leads to an entity that the schema lacks. -/
  | relationLeavesSchema (entity relation target : String)
  /-- The schema has no entity of the name. -/
  | unknownEntity (name : String) (known : NameSet)
  /-- A relation that is about to be followed leads out of the schema. -/
  | danglingRelation (relation : Relation)
  /-- A relation that is about to be joined has a kind without a meaning. -/
  | unknownKind (kind : String) (relation : Relation)
  /-- A plan was asked for something that is neither an entity nor a name. -/
  | rootNotAnEntity (value : RawValue)
  /-- A plan was asked for an entity other than the one that the schema has under its name. -/
  | rootNotRegistered (name : String)
  /-- The mark of control parameters is empty. -/
  | emptySigil
  /-- The mark of patterns is empty. -/
  | emptyMarker
  /-- A control key does not start with the mark of control parameters. -/
  | keyWithoutSigil (key sigil : String)
  /-- A key does not start with the namespace it is said to have. -/
  | keyOutsideNamespace (key lead : String)
  /-- Two maps that are to be joined share a key. -/
  | overlappingKey (key old new : String)
  /-- The first member of a closure is not the root; `paths` are those of all members. -/
  | rootlessClosure (paths : List (List String))
  /-- A request asks for an order by fields and for a random order. -/
  | conflictingOrder (orderBy random : String × RawValue)
  /-- The exponent of a number is out of all bounds. -/
  | numberOutOfRange (literal : String)
  /-- The direction of an order is no text. -/
  | directionNotText (value : RawValue)
  /-- The tables of a schema come from several collections of tables. -/
  | severalCollections
  /-- Tables of a schema lack a primary key of a single column. -/
  | missingPrimaryKey (tables : NameSet)
  /-- A table without a primary key of a single column is referenced. -/
  | noSinglePrimaryKey (table : String) (columns : List String)
  /-- Relations are declared on an entity that has no table. -/
  | relationsOnUnknownEntity (entity : String) (relations : List Relation)
  /-- A declared relation leads to an entity that has no table. -/
  | relationToUnknownEntity (entity relation target : String)
  /-- A declared relation uses a column that the table lacks. -/
  | relationToUnknownColumn (entity relation column table : String)
  /-- Two entities share a table. -/
  | tableTaken (table entity earlier : String)
  /-- A foreign key refers to a table that the collection lacks. -/
  | keyToUnknownTable (table column referenced key : String)
  /-- A foreign key refers to a column that the referenced table lacks. -/
  | keyToUnknownColumn (table reference referenced key : String)
  deriving DecidableEq

namespace Error

/-- The families of causes. -/
inductive Kind where
  | invalidEntity
  | conflictingModifiers
  | invalidSchema
  | invalidRelation
  | missingPrimaryKey
  | brokenAssertion
  | numberOutOfRange
  | directionNotText
  | unknownReferencedTable
  | unknownReferencedColumn
  deriving DecidableEq, Repr

/-- The family of a cause. -/
def kind : Error → Kind
  | unknownEntity .. | rootNotAnEntity _ | rootNotRegistered _ => .invalidEntity
  | conflictingOrder .. => .conflictingModifiers
  | notAnEntity _ | duplicateEntity _ | relationLeavesSchema .. => .invalidSchema
  | relationsOnUnknownEntity .. | relationToUnknownEntity .. | relationToUnknownColumn .. =>
    .invalidRelation
  | missingPrimaryKey _ => .missingPrimaryKey
  | numberOutOfRange _ => .numberOutOfRange
  | directionNotText _ => .directionNotText
  | keyToUnknownTable .. => .unknownReferencedTable
  | keyToUnknownColumn .. => .unknownReferencedColumn
  | misnamedRelation .. | danglingRelation _ | unknownKind .. | emptySigil | emptyMarker
  | keyWithoutSigil .. | keyOutsideNamespace .. | overlappingKey .. | rootlessClosure _
  | severalCollections | noSinglePrimaryKey .. | tableTaken .. => .brokenAssertion

/-- Items between the given brackets. -/
def bracketed (opening closing : String) (items : List String) : String :=
  opening ++ ", ".intercalate items ++ closing

/-- The report of a cause. -/
def message : Error → String
  | misnamedRelation entity name relation =>
    let relation := relation.quoted
    s!"Relation {relation} of entity {entity} is registered under mismatched name {name}."
  | notAnEntity value =>
    let shown := value.shown
    let type := value.typeName
    s!"Expected an EntityDescriptor, but got {shown} of type {type}."
  | duplicateEntity name => s!"Found duplicate entity name {name} in the schema."
  | relationLeavesSchema entity relation target =>
    s!"Relation {relation} of entity {entity} references a non-existent entity {target}."
  | unknownEntity name known =>
    let known := bracketed "[" "]" (known.toList.map Text.quoted)
    s!"Entity {name} is not part of the schema. Known entities: {known}"
  | danglingRelation relation =>
    let shown := relation.quoted
    let target := relation.targetEntity
    s!"Relation {shown} points to entity {target}, which is not part of the schema. " ++
      "This should have been caught by make_schema_info."
  | unknownKind kind relation =>
    let relation := relation.quoted
    s!"Unknown relation kind {kind} for relation {relation}."
  | rootNotAnEntity value =>
    let shown := value.shown
    let type := value.typeName
    s!"Can only compile query plans for entities, but got {shown} of type {type}."
  | rootNotRegistered name =>
    s!"Entity {name} is not the one registered in the schema under that name."
  | emptySigil => "The control_sigil field is expected to be non-empty."
  | emptyMarker => "The wildcard_marker field is expected to be non-empty."
  | keyWithoutSigil key sigil =>
    s!"Control key {key} does not start with the control sigil {sigil}, " ++
      "so it would never be classified as a control key."
  | keyOutsideNamespace key lead => s!"Key {key} is not namespaced with prefix {lead}."
  | overlappingKey key old new =>
    s!"Overlapping key \"{key}\" found in dicts that are supposed to not overlap. " ++
      s!"Values: {old} {new}"
  | rootlessClosure paths =>
    let shown := paths.map fun path => bracketed "(" ")" (path.map Text.quoted)
    let members := bracketed "(" ")" shown
    s!"Expected the first closure member to be the root, but got: {members}"
  | conflictingOrder (orderBy, fields) (random, flag) =>
    let fields := fields.quoted
    let flag := flag.quoted
    s!"Cannot combine {orderBy} with {random}: a query is either ordered by fields or randomly " ++
      s!"ordered. Received {orderBy}={fields} and {random}={flag}."
  | numberOutOfRange literal => s!"The number {literal} is out of range."
  | directionNotText value =>
    let value := value.quoted
    s!"The order direction {value} is not a text."
  | severalCollections => "Multiple SQLAlchemy MetaData objects used for schema generation."
  | missingPrimaryKey tables =>
    let names := bracketed "\x7b" "\x7d" (tables.toList.map Text.quoted)
    "At least one SQLAlchemy Table is missing a single-column primary key. Note that the " ++
      "primary keys in SQLAlchemy Table objects do not have to match the primary keys in the " ++
      "underlying row. They must simply be unique and non-null identifiers of each row. " ++
      s!"Tables missing primary keys: {names}"
  | noSinglePrimaryKey table columns =>
    let found := bracketed "[" "]" (columns.map Text.quoted)
    s!"Expected table {table} to have a single-column primary key, but found {found}. " ++
      "This should have been caught by validate_that_tables_have_primary_keys."
  | relationsOnUnknownEntity entity relations =>
    let relations := bracketed "[" "]" (relations.map Relation.quoted)
    s!"Relations {relations} are declared on a non-existent entity {entity}."
  | relationToUnknownEntity entity relation target =>
    s!"Relation {relation} of entity {entity} references a non-existent entity {target}"
  | relationToUnknownColumn entity relation column table =>
    s!"Relation {relation} of entity {entity} references a non-existent column {column} " ++
      s!"in table {table}"
  | tableTaken table entity earlier =>
    s!"Table {table} is associated with multiple entities: {entity} and {earlier}."
  | keyToUnknownTable table column referenced key =>
    s!"Foreign key associated with column '{table}.{column}' could not find table " ++
      s!"'{referenced}' with which to generate a foreign key to target column '{key}'"
  | keyToUnknownColumn table reference referenced key =>
    s!"Could not initialize target column for ForeignKey '{reference}' on table '{table}': " ++
      s!"table '{referenced}' has no column named '{key}'"

end Error

end RequestPlan
