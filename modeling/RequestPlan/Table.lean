import RequestPlan.Error

/-!
# Database tables

What a schema needs to know of a database table: its names, its columns and its foreign keys.

* `Column`, `ColumnReference`, `ForeignKey`, `Table`: the descriptions;
* `Table.IsSame`: whether two descriptions are of one table;
* `Table.IsReferenced`, `Table.column?`: the table and the column that a reference leads to;
* `Table.singlePrimaryKey`: the primary key, which has to be a single column.
-/

namespace RequestPlan

/-- A column. Declared relations and the references of foreign keys name it by its key, everything
else goes by its name. -/
structure Column where
  name : String
  key : String
  isPrimary : Bool
  deriving DecidableEq, Repr

/-- A reference to a column of some table: the collection of the table, its full name there, and the
key of the column. -/
structure ColumnReference where
  collection : Int
  table : String
  columnKey : String
  deriving DecidableEq, Repr

/-- The reference that is written within a collection, with a dot between table and column; the full
name of the table may hold dots itself. -/
def ColumnReference.ofText (collection : Int) (text : String) : ColumnReference :=
  let reversed := text.toList.reverse
  let column := reversed.takeWhile (· ≠ '.')
  ⟨collection, String.ofList (reversed.drop (column.length + 1)).reverse,
    String.ofList column.reverse⟩

/-- A column of a foreign key, with the reference that it makes. -/
structure KeyColumn where
  column : Column
  reference : ColumnReference
  deriving DecidableEq, Repr

/-- A foreign key: at least one column, each with the reference that it makes. -/
structure ForeignKey where
  first : KeyColumn
  others : List KeyColumn
  deriving DecidableEq, Repr

/-- The columns of a foreign key. -/
def ForeignKey.columns (key : ForeignKey) : List KeyColumn :=
  key.first :: key.others

/-- A table of a collection of tables. -/
structure Table where
  collection : Int
  schemaName : Option String
  name : String
  columns : List Column
  foreignKeys : List ForeignKey
  deriving DecidableEq, Repr

namespace Table

/-- The name of the table within its collection. -/
def fullName (table : Table) : String :=
  match table.schemaName with
  | some schemaName => schemaName ++ "." ++ table.name
  | none => table.name

/-- Two descriptions of one table: one collection has one table of each full name. -/
def IsSame (s t : Table) : Prop :=
  s.collection = t.collection ∧ s.fullName = t.fullName

instance (s t : Table) : Decidable (IsSame s t) :=
  inferInstanceAs (Decidable (_ ∧ _))

/-- Whether the reference is to a column of the table. -/
def IsReferenced (table : Table) (reference : ColumnReference) : Prop :=
  reference.collection = table.collection ∧ reference.table = table.fullName

instance (table : Table) (reference : ColumnReference) : Decidable (IsReferenced table reference) :=
  inferInstanceAs (Decidable (_ ∧ _))

/-- The column with the key. -/
def column? (table : Table) (key : String) : Option Column :=
  table.columns.find? fun column => column.key = key

/-- Whether a column of the table has the key. -/
def hasKey (table : Table) (key : String) : Bool :=
  table.columns.any fun column => column.key = key

/-- The names of the columns of the primary key. -/
def primaryKey (table : Table) : List String :=
  (table.columns.filter (·.isPrimary)).map Column.name

/-- The name of the column that makes up the primary key. -/
def singlePrimaryKey (table : Table) : Except Error String :=
  match table.primaryKey with
  | [name] => .ok name
  | names => .error (.noSinglePrimaryKey table.fullName names)

/-- Whether a single column makes up the primary key. -/
def HasSinglePrimaryKey (table : Table) : Prop :=
  table.primaryKey.length = 1

instance (table : Table) : Decidable table.HasSinglePrimaryKey :=
  inferInstanceAs (Decidable (_ = _))

theorem isSome_column?_iff {table : Table} {key : String} :
    (table.column? key).isSome ↔ table.hasKey key := by
  simp [column?, hasKey]

theorem of_column?_eq_some {table : Table} {key : String} {column : Column}
    (h : table.column? key = some column) : column ∈ table.columns ∧ column.key = key :=
  ⟨List.mem_of_find?_eq_some h, by simpa using List.find?_some h⟩

theorem singlePrimaryKey_eq_ok_iff {table : Table} {name : String} :
    table.singlePrimaryKey = .ok name ↔ table.primaryKey = [name] := by
  simp only [singlePrimaryKey]
  split
  · next h => simp [h]
  · next h =>
    simp only [reduceCtorEq, false_iff]
    exact fun heq => h name heq

end Table

end RequestPlan
