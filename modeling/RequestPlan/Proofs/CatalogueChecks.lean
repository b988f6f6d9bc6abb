import Mathlib.Data.List.Pairwise
import RequestPlan.Catalogue.ImpliedRelations
import RequestPlan.Proofs.Outcome

/-!
# The checks of a catalogue

What each of the checks accepts, and with what each of them fails.

* `Catalogue.SharesCollection`, `HasSinglePrimaryKeys`, `Accepts`, `IsInjective`: what is checked;
* `Catalogue.Resolves`, `Catalogue.ResolvesAll`: references that lead to a column;
* `Catalogue.IsSound`: all of it;
* `Catalogue.check_eq_ok_iff`: a sound catalogue is one that passes the checks;
* `Error.IsCatalogueFault`: the causes with which they fail.
-/

namespace RequestPlan

/-- The first table has the foreign key of the relation, the other one the key that it names. -/
def Relation.HasKeysIn (relation : Relation) (keyTable referenced : Table) : Prop :=
  keyTable.hasKey relation.foreignKey ∧
    ∀ key, relation.referencedKey = some key → referenced.hasKey key

theorem Table.IsSame.symm {s t : Table} (h : s.IsSame t) : t.IsSame s :=
  ⟨h.1.symm, h.2.symm⟩

/-- What can be wrong with a catalogue or with the relations declared on it. Making entities and a
schema of them has causes of failure of its own, which are not among these. -/
def Error.IsCatalogueFault : Error → Prop
  | severalCollections | missingPrimaryKey _ | relationsOnUnknownEntity .. => True
  | relationToUnknownEntity .. | unknownKind .. | relationToUnknownColumn .. => True
  | tableTaken .. | keyToUnknownTable .. | keyToUnknownColumn .. => True
  | _ => False

namespace Catalogue

variable {catalogue : Catalogue} {declared : Declarations} {e : Error}

/-! ## What is checked -/

/-- All tables come from one collection. -/
def SharesCollection (catalogue : Catalogue) : Prop :=
  ∀ s ∈ catalogue.values, ∀ t ∈ catalogue.values, s.collection = t.collection

/-- Every table has a primary key of a single column. -/
def HasSinglePrimaryKeys (catalogue : Catalogue) : Prop :=
  ∀ table ∈ catalogue.values, table.HasSinglePrimaryKey

/-- No two entities have one table. -/
def IsInjective (catalogue : Catalogue) : Prop :=
  ∀ m s n t, catalogue.get? m = some s → catalogue.get? n = some t → s.IsSame t → m = n

/-- The relation leads from the table to that of an entity, has a kind with a meaning, and its keys
are columns of the tables at whose ends its kind puts them. -/
def Accepts (catalogue : Catalogue) (source : Table) (relation : Relation) : Prop :=
  ∃ target, catalogue.get? relation.targetEntity = some target ∧
    match relation.kind with
    | .toOne => relation.HasKeysIn source target
    | .toMany => relation.HasKeysIn target source
    | .unknown _ => False

/-- Relations are declared on entities only, and each of them is acceptable there. -/
def AcceptsAll (catalogue : Catalogue) (declared : Declarations) : Prop :=
  ∀ entity relations, declared.get? entity = some relations →
    ∃ source, catalogue.get? entity = some source ∧
      ∀ relation ∈ relations, catalogue.Accepts source relation

/-- The reference leads to a table, whether an entity has it or not, and to a column of it. -/
def Resolves (catalogue : Catalogue) (reference : ColumnReference) : Prop :=
  ∃ target, catalogue.table? reference = some target ∧ target.hasKey reference.columnKey

/-- Every column of every foreign key in the table of an entity has a reference that leads
somewhere. -/
def ResolvesAll (catalogue : Catalogue) : Prop :=
  ∀ source ∈ catalogue.values, ∀ key ∈ source.foreignKeys, ∀ column ∈ key.columns,
    catalogue.Resolves column.reference

/-- What a catalogue and the relations declared on it have to be for a schema. -/
structure IsSound (catalogue : Catalogue) (declared : Declarations) : Prop where
  sharesCollection : catalogue.SharesCollection
  hasSinglePrimaryKeys : catalogue.HasSinglePrimaryKeys
  acceptsAll : catalogue.AcceptsAll declared
  isInjective : catalogue.IsInjective
  resolvesAll : catalogue.ResolvesAll

/-! ## Tables -/

theorem checkCollection_eq_ok_iff :
    catalogue.checkCollection = .ok () ↔ catalogue.SharesCollection := by
  unfold checkCollection SharesCollection
  cases catalogue.values with
  | nil => simp
  | cons first others =>
    rw [ite_eq_ok_iff]
    constructor
    · intro h s hs t ht
      have hfirst : ∀ table ∈ first :: others, table.collection = first.collection :=
        List.forall_mem_cons.2 ⟨rfl, h⟩
      exact (hfirst s hs).trans (hfirst t ht).symm
    · exact fun h table ht => h table (List.mem_cons_of_mem _ ht) first List.mem_cons_self

theorem checkPrimaryKeys_eq_ok_iff :
    catalogue.checkPrimaryKeys = .ok () ↔ catalogue.HasSinglePrimaryKeys := by
  have hnil : catalogue.values.filter (fun table => ¬ table.HasSinglePrimaryKey) = [] ↔
      catalogue.HasSinglePrimaryKeys := by
    simp [List.filter_eq_nil_iff, HasSinglePrimaryKeys]
  rw [← hnil]
  unfold checkPrimaryKeys
  cases catalogue.values.filter fun table => ¬ table.HasSinglePrimaryKey <;> simp

/-- No clash is found when the tables differ from each other and from all earlier ones. -/
theorem clash?_eq_none_iff {earlier entries : List (String × Table)} :
    clash? earlier entries = none ↔
      (∀ s ∈ earlier, ∀ t ∈ entries, ¬ s.2.IsSame t.2) ∧
        entries.Pairwise fun s t => ¬ s.2.IsSame t.2 := by
  induction entries generalizing earlier with
  | nil => simp [clash?]
  | cons entry entries ih =>
    unfold clash?
    cases hfind : earlier.find? fun other => entry.2.IsSame other.2 with
    | some other =>
      have hsame : entry.2.IsSame other.2 := by simpa using List.find?_some hfind
      simp only [reduceCtorEq, false_iff, not_and]
      exact fun hall => absurd hsame.symm
        (hall other (List.mem_of_find?_eq_some hfind) entry List.mem_cons_self)
    | none =>
      have hnew : ∀ s ∈ earlier, ¬ s.2.IsSame entry.2 := fun s hs hsame =>
        List.find?_eq_none.1 hfind s hs (by simpa using hsame.symm)
      simp only [ih, List.pairwise_cons, List.mem_append, List.mem_singleton]
      grind

theorem pairwise_entries_iff :
    catalogue.entries.Pairwise (fun s t => ¬ s.2.IsSame t.2) ↔ catalogue.IsInjective := by
  constructor
  · intro h m s n t hs ht hsame
    have : Std.Symm fun s t : String × Table => ¬ s.2.IsSame t.2 :=
      ⟨fun _ _ hst hts => hst hts.symm⟩
    rw [KeyedList.get?_eq_some_iff] at hs ht
    by_contra hne
    exact h.forall hs ht (fun heq => hne (Prod.ext_iff.1 heq).1) hsame
  · intro h
    refine (List.pairwise_map.1 catalogue.nodup_keys).imp_of_mem fun {s t} hs ht hne hsame => ?_
    exact hne (h s.1 s.2 t.1 t.2 (KeyedList.get?_eq_some_iff.2 hs)
      (KeyedList.get?_eq_some_iff.2 ht) hsame)

theorem checkDistinct_eq_ok_iff : catalogue.checkDistinct = .ok () ↔ catalogue.IsInjective := by
  have hnone : clash? [] catalogue.entries = none ↔ catalogue.IsInjective := by
    rw [clash?_eq_none_iff, pairwise_entries_iff]
    simp
  rw [← hnone]
  unfold checkDistinct
  split <;> simp [*]

/-! ## Declared relations -/

theorem checkColumn_eq_ok_iff {entity : String} {relation : Relation} {table : Table}
    {key : String} : checkColumn entity relation table key = .ok () ↔ table.hasKey key :=
  ite_eq_ok_iff

theorem checkRelation_eq_ok_iff {entity : String} {source : Table} {relation : Relation} :
    catalogue.checkRelation entity source relation = .ok () ↔
      catalogue.Accepts source relation := by
  unfold checkRelation Accepts
  cases catalogue.get? relation.targetEntity with
  | none => simp
  | some target =>
    unfold tablesOf Relation.HasKeysIn
    cases relation.kind <;> cases relation.referencedKey <;>
      simp [check_bind_eq_ok_iff, checkColumn_eq_ok_iff]

theorem checkDeclared_eq_ok_iff :
    catalogue.checkDeclared declared = .ok () ↔ catalogue.AcceptsAll declared := by
  unfold checkDeclared AcceptsAll
  rw [forM_eq_ok_iff, Prod.forall]
  refine forall₂_congr fun entity relations => ?_
  rw [KeyedList.get?_eq_some_iff]
  refine imp_congr_right fun _ => ?_
  dsimp only
  cases catalogue.get? entity with
  | none => simp
  | some source =>
    simp only [forM_eq_ok_iff, checkRelation_eq_ok_iff, Option.some.injEq, exists_eq_left']

/-! ## References -/

theorem resolve_eq_ok_iff {source target : Table} {key : KeyColumn} {referenced : Column} :
    catalogue.resolve source key = .ok (target, referenced) ↔
      catalogue.table? key.reference = some target ∧
        target.column? key.reference.columnKey = some referenced := by
  unfold resolve
  dsimp only
  cases catalogue.table? key.reference with
  | none => simp
  | some found =>
    dsimp only
    cases hcolumn : found.column? key.reference.columnKey with
    | none =>
      simp only [reduceCtorEq, Option.some.injEq, false_iff, not_and]
      rintro rfl
      simp [hcolumn]
    | some column =>
      simp only [Except.ok.injEq, Prod.mk.injEq, Option.some.injEq]
      exact and_congr_right fun heq => by rw [← heq, hcolumn, Option.some.injEq]

theorem exists_resolve_iff {source : Table} {key : KeyColumn} :
    (∃ result, catalogue.resolve source key = .ok result) ↔
      catalogue.Resolves key.reference := by
  simp only [Prod.exists, resolve_eq_ok_iff, Resolves, exists_and_left,
    ← Table.isSome_column?_iff, Option.isSome_iff_exists]

/-- Fails unless every column of the foreign key refers to a column of some table. -/
def checkKey (catalogue : Catalogue) (source : Table) (key : ForeignKey) : Except Error Unit :=
  key.columns.forM fun column => (fun _ => ()) <$> catalogue.resolve source column

/-- Fails unless all foreign keys of the table pass `checkKey`. -/
def checkKeys (catalogue : Catalogue) (source : Table) : Except Error Unit :=
  source.foreignKeys.forM (catalogue.checkKey source)

/-- Fails unless the foreign keys in the tables of all entities pass `checkKey`. -/
def checkReferences (catalogue : Catalogue) : Except Error Unit :=
  catalogue.entries.forM fun entry => catalogue.checkKeys entry.2

theorem checkKey_eq_ok_iff {source : Table} {key : ForeignKey} :
    catalogue.checkKey source key = .ok () ↔
      ∀ column ∈ key.columns, catalogue.Resolves column.reference := by
  simp only [checkKey, forM_eq_ok_iff, map_eq_ok_iff, and_true, exists_resolve_iff]

theorem checkReferences_eq_ok_iff :
    catalogue.checkReferences = .ok () ↔ catalogue.ResolvesAll := by
  simp only [checkReferences, checkKeys, forM_eq_ok_iff, checkKey_eq_ok_iff, ResolvesAll,
    KeyedList.values, List.forall_mem_map]

/-! ## All checks -/

/-- The checks that a catalogue has to pass for a schema. -/
def check (catalogue : Catalogue) (declared : Declarations) : Except Error Unit := do
  catalogue.checkCollection
  catalogue.checkPrimaryKeys
  catalogue.checkDeclared declared
  catalogue.checkDistinct
  catalogue.checkReferences

theorem check_eq_ok_iff : catalogue.check declared = .ok () ↔ catalogue.IsSound declared := by
  rw [check, check_bind_eq_ok_iff, check_bind_eq_ok_iff, check_bind_eq_ok_iff,
    check_bind_eq_ok_iff, checkCollection_eq_ok_iff, checkPrimaryKeys_eq_ok_iff,
    checkDeclared_eq_ok_iff, checkDistinct_eq_ok_iff, checkReferences_eq_ok_iff]
  exact ⟨fun ⟨h₁, h₂, h₃, h₄, h₅⟩ => ⟨h₁, h₂, h₃, h₄, h₅⟩,
    fun ⟨h₁, h₂, h₃, h₄, h₅⟩ => ⟨h₁, h₂, h₃, h₄, h₅⟩⟩

/-! ## Failures -/

theorem isCatalogueFault_of_checkCollection (h : catalogue.checkCollection = .error e) :
    e.IsCatalogueFault := by
  unfold checkCollection at h
  split at h
  · cases h
  · split at h
    · cases h
    · cases h
      trivial

theorem isCatalogueFault_of_checkPrimaryKeys (h : catalogue.checkPrimaryKeys = .error e) :
    e.IsCatalogueFault := by
  unfold checkPrimaryKeys at h
  split at h
  · cases h
  · cases h
    trivial

theorem isCatalogueFault_of_checkDistinct (h : catalogue.checkDistinct = .error e) :
    e.IsCatalogueFault := by
  unfold checkDistinct at h
  split at h
  · cases h
  · cases h
    trivial

theorem isCatalogueFault_of_checkColumn {entity : String} {relation : Relation} {table : Table}
    {key : String} (h : checkColumn entity relation table key = .error e) :
    e.IsCatalogueFault := by
  unfold checkColumn at h
  split at h
  · cases h
  · cases h
    trivial

theorem isCatalogueFault_of_checkRelation {entity : String} {source : Table} {relation : Relation}
    (h : catalogue.checkRelation entity source relation = .error e) : e.IsCatalogueFault := by
  unfold checkRelation at h
  split at h
  · cases h
    trivial
  · rcases bind_eq_error_iff.1 h with htables | ⟨⟨keyTable, referenced⟩, -, h⟩
    · unfold tablesOf at htables
      split at htables
      · cases htables
      · cases htables
      · cases htables
        trivial
    · rcases bind_eq_error_iff.1 h with hkey | ⟨-, -, h⟩
      · exact isCatalogueFault_of_checkColumn hkey
      · split at h
        · exact isCatalogueFault_of_checkColumn h
        · exact absurd h pure_ne_error

theorem isCatalogueFault_of_checkDeclared (h : catalogue.checkDeclared declared = .error e) :
    e.IsCatalogueFault := by
  obtain ⟨⟨entity, relations⟩, -, hentry⟩ := exists_item_of_forM_eq_error h
  dsimp only at hentry
  split at hentry
  · cases hentry
    trivial
  · obtain ⟨relation, -, hrelation⟩ := exists_item_of_forM_eq_error hentry
    exact isCatalogueFault_of_checkRelation hrelation

theorem isCatalogueFault_of_resolve {source : Table} {key : KeyColumn}
    (h : catalogue.resolve source key = .error e) : e.IsCatalogueFault := by
  unfold resolve at h
  dsimp only at h
  split at h
  · cases h
    trivial
  · split at h
    · cases h
      trivial
    · cases h

theorem isCatalogueFault_of_checkReferences (h : catalogue.checkReferences = .error e) :
    e.IsCatalogueFault := by
  obtain ⟨entry, -, hkeys⟩ := exists_item_of_forM_eq_error h
  obtain ⟨key, -, hkey⟩ := exists_item_of_forM_eq_error hkeys
  obtain ⟨column, -, hcolumn⟩ := exists_item_of_forM_eq_error hkey
  exact isCatalogueFault_of_resolve (map_eq_error_iff.1 hcolumn)

theorem isCatalogueFault_of_check (h : catalogue.check declared = .error e) :
    e.IsCatalogueFault := by
  unfold check at h
  rcases check_bind_eq_error_iff.1 h with h | ⟨-, h⟩
  · exact isCatalogueFault_of_checkCollection h
  rcases check_bind_eq_error_iff.1 h with h | ⟨-, h⟩
  · exact isCatalogueFault_of_checkPrimaryKeys h
  rcases check_bind_eq_error_iff.1 h with h | ⟨-, h⟩
  · exact isCatalogueFault_of_checkDeclared h
  rcases check_bind_eq_error_iff.1 h with h | ⟨-, h⟩
  · exact isCatalogueFault_of_checkDistinct h
  · exact isCatalogueFault_of_checkReferences h

end Catalogue

end RequestPlan
