import Mathlib.Data.List.Nodup
import RequestPlan.Proofs.KeyAccounts

/-!
# The order of the foreign keys

The foreign keys of a table come in no order of their own, and of the keys with one name the first
one gets the relation. The order makes no difference where all keys with one name have one column
and refer to one column: then they would all get the same relation, and the same warning.

* `Catalogue.withForeignKeys`, `Catalogue.impliedBy_withForeignKeys`: other foreign keys in the
  tables of a catalogue;
* `Catalogue.Agrees`, `Catalogue.NamesAgree`: keys with one name are alike;
* `Implied.IsReordered`, `Catalogue.isReordered_impliedBy`: the keys of one table in another order;
* `Catalogue.SameInAnyOrder`, `Catalogue.sameInAnyOrder`: the keys of all tables in other orders.
-/

namespace RequestPlan

/-- The table with other foreign keys. -/
def Table.withForeignKeys (table : Table) (keys : List ForeignKey) : Table :=
  { table with foreignKeys := keys }

/-- The same relations and warnings in any order, and as many keys of several columns. -/
structure Implied.IsReordered (implied other : Implied) : Prop where
  relations : implied.relations.Perm other.relations
  warnings : implied.warnings.Perm other.warnings
  composites : implied.composites = other.composites

namespace Catalogue

variable {catalogue : Catalogue} {source : Table} {keys keys' : List ForeignKey}
  {relation other : Relation} {relations relations' : List Relation} {implied next : Implied}
  {order : String → List ForeignKey}

/-! ## Other foreign keys -/

/-- The catalogue with other foreign keys in the table of each entity. -/
def withForeignKeys (catalogue : Catalogue) (order : String → List ForeignKey) : Catalogue where
  toKeyedList := catalogue.mapValues fun name table => table.withForeignKeys (order name)
  unmapped := catalogue.unmapped

theorem entries_withForeignKeys (catalogue : Catalogue) (order : String → List ForeignKey) :
    (catalogue.withForeignKeys order).entries =
      catalogue.entries.map fun entry => (entry.1, entry.2.withForeignKeys (order entry.1)) := rfl

theorem get?_withForeignKeys {name : String} {table : Table}
    (h : catalogue.get? name = some table) :
    (catalogue.withForeignKeys order).get? name = some (table.withForeignKeys (order name)) := by
  rw [KeyedList.get?_eq_some_iff, entries_withForeignKeys]
  exact List.mem_map.2 ⟨_, KeyedList.get?_eq_some_iff.1 h, rfl⟩

theorem HasSinglePrimaryKeys.withForeignKeys (h : catalogue.HasSinglePrimaryKeys)
    (order : String → List ForeignKey) :
    (catalogue.withForeignKeys order).HasSinglePrimaryKeys := by
  intro table htable
  rw [KeyedList.values, entries_withForeignKeys, List.map_map] at htable
  obtain ⟨entry, hentry, rfl⟩ := List.mem_map.1 htable
  exact h entry.2 (List.mem_map_of_mem hentry)

theorem IsInjective.withForeignKeys (h : catalogue.IsInjective)
    (order : String → List ForeignKey) : (catalogue.withForeignKeys order).IsInjective := by
  intro _ _ _ _ hs ht hsame
  rw [KeyedList.get?_eq_some_iff, entries_withForeignKeys, List.mem_map] at hs ht
  obtain ⟨⟨_, s⟩, hs, ⟨⟩⟩ := hs
  obtain ⟨⟨_, t⟩, ht, ⟨⟩⟩ := ht
  exact h _ s _ t (KeyedList.get?_eq_some_iff.2 hs) (KeyedList.get?_eq_some_iff.2 ht) hsame

/-- A reference leads to the same table, with other foreign keys. -/
theorem exists_table?_withForeignKeys (catalogue : Catalogue) (order : String → List ForeignKey)
    (reference : ColumnReference) :
    ∃ keys, (catalogue.withForeignKeys order).table? reference =
      (catalogue.table? reference).map fun table => table.withForeignKeys keys := by
  -- without their foreign keys, the tables of both catalogues are the same
  have htables : (catalogue.withForeignKeys order).tables.map (·.withForeignKeys []) =
      catalogue.tables.map (·.withForeignKeys []) := by
    simp only [tables, KeyedList.values, entries_withForeignKeys, List.map_append, List.map_map]
    rfl
  have hfind (catalogue : Catalogue) :
      (catalogue.table? reference).map (·.withForeignKeys []) =
        (catalogue.tables.map (·.withForeignKeys [])).find? fun table =>
          table.IsReferenced reference := by
    rw [List.find?_map]
    rfl
  have hbare := (hfind (catalogue.withForeignKeys order)).trans (htables ▸ (hfind catalogue).symm)
  cases htable : catalogue.table? reference with
  | none => exact ⟨[], by simpa [htable] using hbare⟩
  | some table =>
    rw [htable, Option.map_some, Option.map_eq_some_iff] at hbare
    obtain ⟨other, hother, heq⟩ := hbare
    refine ⟨other.foreignKeys, hother.trans (congrArg some ?_)⟩
    exact congrArg (·.withForeignKeys other.foreignKeys) heq

theorem resolves_withForeignKeys_iff {reference : ColumnReference} :
    (catalogue.withForeignKeys order).Resolves reference ↔ catalogue.Resolves reference := by
  obtain ⟨keys, htable⟩ := exists_table?_withForeignKeys catalogue order reference
  simp only [Resolves, htable, Option.map_eq_some_iff, exists_exists_and_eq_and]
  rfl

theorem parallel_resolve_withForeignKeys (catalogue : Catalogue)
    (order : String → List ForeignKey) (source : Table) (key : KeyColumn) :
    Parallel (fun other result => ∃ keys, other = (result.1.withForeignKeys keys, result.2))
      ((catalogue.withForeignKeys order).resolve source key) (catalogue.resolve source key) := by
  obtain ⟨keys, htable⟩ := exists_table?_withForeignKeys catalogue order key.reference
  unfold resolve
  dsimp only
  rw [htable]
  cases catalogue.table? key.reference with
  | none => exact .error _
  | some target =>
    have hcolumn : (target.withForeignKeys keys).column? key.reference.columnKey =
        target.column? key.reference.columnKey := rfl
    rw [Option.map_some]
    dsimp only
    rw [hcolumn]
    cases target.column? key.reference.columnKey with
    | none => exact .error _
    | some referenced => exact .ok ⟨keys, rfl⟩

theorem addSingle_withForeignKeys (catalogue : Catalogue) (order : String → List ForeignKey)
    (implied : Implied) (column : Column) (target : Table) (referenced : Column) :
    (catalogue.withForeignKeys order).addSingle source implied column
        (target.withForeignKeys keys) referenced =
      catalogue.addSingle source implied column target referenced := by
  have hentity : (catalogue.withForeignKeys order).entity? (target.withForeignKeys keys) =
      catalogue.entity? target := by
    rw [entity?, entries_withForeignKeys, List.find?_map, Option.map_map]
    rfl
  rw [addSingle, addSingle, hentity]
  rfl

/-- What a foreign key adds does not depend on the foreign keys in the catalogue. -/
theorem addKey_withForeignKeys (catalogue : Catalogue) (order : String → List ForeignKey)
    (source : Table) :
    (catalogue.withForeignKeys order).addKey source = catalogue.addKey source := by
  funext implied key
  refine (Parallel.mapM fun column _ =>
    parallel_resolve_withForeignKeys catalogue order source column).bind_eq fun others ends h => ?_
  cases h with
  | nil => rfl
  | cons hfirst hrest =>
    obtain ⟨keys, rfl⟩ := hfirst
    cases hrest with
    | nil => exact addSingle_withForeignKeys ..
    | cons _ _ => rfl

theorem impliedBy_withForeignKeys (catalogue : Catalogue) (order : String → List ForeignKey)
    (source : Table) :
    (catalogue.withForeignKeys order).impliedBy source = catalogue.impliedBy source := by
  rw [impliedBy, impliedBy, addKey_withForeignKeys]

theorem AccountsFor.of_withForeignKeys
    (h : catalogue.AccountsFor (source.withForeignKeys keys') keys relations) :
    catalogue.AccountsFor source keys relations :=
  ⟨h.nodup, h.leadsAlong, h.named⟩

theorem Balances.of_withForeignKeys
    (h : catalogue.Balances (source.withForeignKeys keys') keys implied) :
    catalogue.Balances source keys implied :=
  ⟨h.perm, h.composites⟩

/-! ## The keys of one table -/

/-- Keys of single columns that lead to entities and imply one name have the same column and refer
to the same column. -/
def Agrees (catalogue : Catalogue) (source : Table) (keys : List ForeignKey) : Prop :=
  ∀ key ∈ keys, ∀ key' ∈ keys, ∀ relation other, catalogue.LeadsAlong source key relation →
    catalogue.LeadsAlong source key' other → relation.name = other.name →
      key.single? = key'.single?

/-- The relation along a foreign key of a single column that leads to an entity. -/
def along? (catalogue : Catalogue) (source : Table) (key : ForeignKey) : Option Relation :=
  key.single?.bind fun column => (catalogue.resolve source column).toOption.bind fun result =>
    (catalogue.entity? result.1).map fun entity =>
      relationAlong column.column entity result.1 result.2

theorem leadsAlong_iff {key : ForeignKey} :
    catalogue.LeadsAlong source key relation ↔ catalogue.along? source key = some relation := by
  simp only [LeadsAlong, along?, Option.bind_eq_some_iff, Option.map_eq_some_iff, Prod.exists,
    exists_and_left, toOption_eq_some_iff]

instance : Decidable (catalogue.Agrees source keys) :=
  decidable_of_iff (∀ key ∈ keys, ∀ key' ∈ keys, ∀ relation ∈ catalogue.along? source key,
    ∀ other ∈ catalogue.along? source key', relation.name = other.name →
      key.single? = key'.single?) (by
    simp only [Agrees, leadsAlong_iff, Option.mem_def]
    grind)

theorem LeadsAlong.congr {key key' : ForeignKey} (h : catalogue.LeadsAlong source key relation)
    (hsingle : key.single? = key'.single?) : catalogue.LeadsAlong source key' relation := by
  rw [LeadsAlong, ← hsingle]
  exact h

theorem Agrees.perm (h : catalogue.Agrees source keys) (hperm : keys'.Perm keys) :
    catalogue.Agrees source keys' :=
  fun key hkey key' hkey' => h key (hperm.subset hkey) key' (hperm.subset hkey')

/-- Then the name of a relation is never taken by any other relation. -/
theorem AccountsFor.mem_iff (h : catalogue.AccountsFor source keys relations)
    (hagrees : catalogue.Agrees source keys) :
    relation ∈ relations ↔ ∃ key ∈ keys, catalogue.LeadsAlong source key relation := by
  refine ⟨h.leadsAlong relation, fun ⟨key, hkey, hleads⟩ => ?_⟩
  obtain ⟨other, hother, hname⟩ := List.mem_map.1 (h.named key hkey relation hleads)
  obtain ⟨key', hkey', hleads'⟩ := h.leadsAlong other hother
  have hsingle := hagrees key' hkey' key hkey other relation hleads' hleads hname
  exact hleads.unique (hleads'.congr hsingle) ▸ hother

theorem AccountsFor.perm (h : catalogue.AccountsFor source keys relations)
    (h' : catalogue.AccountsFor source keys' relations') (hagrees : catalogue.Agrees source keys)
    (hperm : keys'.Perm keys) : relations.Perm relations' := by
  have hnodup := List.Nodup.of_map _ h.nodup
  refine (List.perm_ext_iff_of_nodup hnodup (List.Nodup.of_map _ h'.nodup)).2 fun relation => ?_
  rw [h.mem_iff hagrees, h'.mem_iff (hagrees.perm hperm)]
  exact exists_congr fun key => and_congr_left' hperm.mem_iff.symm

/-- What gets no relation gets a warning: the same relations leave the same warnings. -/
theorem Balances.warnings_perm (h : catalogue.Balances source keys implied)
    (h' : catalogue.Balances source keys' next) (hperm : keys'.Perm keys)
    (hrelations : implied.relations.Perm next.relations) :
    implied.warnings.Perm next.warnings := by
  -- The relations of both sides, put as warnings, make up all keys and cancel out.
  refine (List.perm_append_left_iff (next.relations.map (Relation.refusal source))).1 ?_
  calc
    List.Perm _ (implied.relations.map (Relation.refusal source) ++ implied.warnings) :=
      (hrelations.map _).symm.append_right _
    List.Perm _ (keys.filterMap (catalogue.refusal? source)) := h.perm
    List.Perm _ (keys'.filterMap (catalogue.refusal? source)) := (hperm.filterMap _).symm
    List.Perm _ (next.relations.map (Relation.refusal source) ++ next.warnings) := h'.perm.symm

theorem isReordered_impliedBy (hkeys : catalogue.HasSinglePrimaryKeys)
    (hagrees : catalogue.Agrees source source.foreignKeys) (hperm : keys.Perm source.foreignKeys)
    (h : catalogue.impliedBy source = .ok implied)
    (h' : catalogue.impliedBy (source.withForeignKeys keys) = .ok next) :
    implied.IsReordered next := by
  have hbalances := balances_of_impliedBy hkeys h
  have hbalances' : catalogue.Balances source keys next :=
    (balances_of_impliedBy hkeys h').of_withForeignKeys
  have haccounts' : catalogue.AccountsFor source keys next.relations :=
    (accountsFor_of_impliedBy hkeys h').of_withForeignKeys
  have hrelations := (accountsFor_of_impliedBy hkeys h).perm haccounts' hagrees hperm
  refine ⟨hrelations, hbalances.warnings_perm hbalances' hperm hrelations, ?_⟩
  rw [hbalances.composites, hbalances'.composites, hperm.countP_eq]

/-! ## The keys of all tables -/

/-- In each table of the catalogue, keys with one name are alike. -/
def NamesAgree (catalogue : Catalogue) : Prop :=
  ∀ table ∈ catalogue.values, catalogue.Agrees table table.foreignKeys

instance : Decidable catalogue.NamesAgree :=
  inferInstanceAs (Decidable (∀ table ∈ catalogue.values, _))

/-- The foreign keys in the table of each entity, in some order. -/
def IsOrder (catalogue : Catalogue) (order : String → List ForeignKey) : Prop :=
  ∀ entry ∈ catalogue.entries, (order entry.1).Perm entry.2.foreignKeys

instance : Decidable (catalogue.IsOrder order) :=
  inferInstanceAs (Decidable (∀ entry ∈ catalogue.entries, _))

/-- Each entity of the catalogue has the same relations in any order: those along the foreign keys
of its table. -/
def SameInAnyOrder (catalogue : Catalogue) (relations others : KeyedList (List Relation)) : Prop :=
  ∀ name table, catalogue.get? name = some table →
    ∃ implied other, relations.get? name = some implied ∧ others.get? name = some other ∧
      implied.Perm other ∧ ∀ relation, relation ∈ implied ↔
        ∃ key ∈ table.foreignKeys, catalogue.LeadsAlong table key relation

variable {results reordered : List (String × Implied)}

theorem isReordered_results (hkeys : catalogue.HasSinglePrimaryKeys)
    (hagree : catalogue.NamesAgree) (horder : catalogue.IsOrder order)
    (h : List.Forall₂ catalogue.IsResult catalogue.entries results)
    (h' : List.Forall₂ (catalogue.withForeignKeys order).IsResult
      (catalogue.withForeignKeys order).entries reordered) :
    List.Forall₂ (fun result other => result.2.IsReordered other.2) results reordered := by
  rw [entries_withForeignKeys, List.forall₂_map_left_iff] at h'
  refine forall₂_of_same_items h h' fun entry hentry result other hresult hother => ?_
  have himplied := (impliedBy_withForeignKeys ..).symm.trans hother.2
  exact isReordered_impliedBy hkeys (hagree entry.2 (List.mem_map_of_mem hentry))
    (horder entry hentry) hresult.2 himplied

theorem allWarnings_perm
    (h : List.Forall₂ (fun (result other : String × Implied) => result.2.IsReordered other.2)
      results reordered) : (allWarnings results).Perm (allWarnings reordered) := by
  have hcomposites : results.map (fun result => result.2.composites) =
      reordered.map fun result => result.2.composites := by
    rw [← List.forall₂_eq_eq_eq, List.forall₂_map_left_iff, List.forall₂_map_right_iff]
    exact h.imp fun _ _ h => h.composites
  rw [allWarnings, allWarnings, hcomposites]
  exact (flatMap_perm_of_forall₂ (h.imp fun _ _ h => h.warnings)).append_right _

theorem sameInAnyOrder_relationsByEntity (hkeys : catalogue.HasSinglePrimaryKeys)
    (hagree : catalogue.NamesAgree) (horder : catalogue.IsOrder order)
    (h : List.Forall₂ catalogue.IsResult catalogue.entries results)
    (h' : List.Forall₂ (catalogue.withForeignKeys order).IsResult
      (catalogue.withForeignKeys order).entries reordered) :
    catalogue.SameInAnyOrder (relationsByEntity results) (relationsByEntity reordered) := by
  intro name table hget
  obtain ⟨implied, himplied, hrelations⟩ := implies_relationsByEntity h name table hget
  obtain ⟨other, hother, hothers⟩ :=
    implies_relationsByEntity h' name _ (get?_withForeignKeys hget)
  rw [impliedBy_withForeignKeys] at hother
  have hentry := KeyedList.get?_eq_some_iff.1 hget
  have hagrees := hagree table (List.mem_map_of_mem hentry)
  have hreordered := isReordered_impliedBy hkeys hagrees (horder _ hentry) himplied hother
  exact ⟨_, _, hrelations, hothers, hreordered.relations,
    fun _ => (accountsFor_of_impliedBy hkeys himplied).mem_iff hagrees⟩

theorem IsOrder.resolvesAll_iff (horder : catalogue.IsOrder order) :
    (catalogue.withForeignKeys order).ResolvesAll ↔ catalogue.ResolvesAll := by
  simp only [ResolvesAll, KeyedList.values, entries_withForeignKeys, List.map_map,
    List.forall_mem_map, Function.comp_apply]
  refine forall₂_congr fun entry hentry => ?_
  refine forall_congr' fun key => ?_
  exact imp_congr (horder entry hentry).mem_iff
    (forall₂_congr fun column _ => resolves_withForeignKeys_iff)

/-- **The order of the foreign keys makes no difference** where all keys of a table with one name
have one column and refer to one column. In any order of the keys of each table, they imply
relations as soon as all of them refer to columns that exist; and these are the same relations,
those along all of the keys, with the same warnings. -/
theorem sameInAnyOrder (hkeys : catalogue.HasSinglePrimaryKeys)
    (hinjective : catalogue.IsInjective) (hagree : catalogue.NamesAgree)
    (horder : catalogue.IsOrder order) :
    ((∃ relations warnings, catalogue.impliedRelations = .ok (relations, warnings)) ↔
        catalogue.ResolvesAll) ∧
      ((∃ others reports,
          (catalogue.withForeignKeys order).impliedRelations = .ok (others, reports)) ↔
        catalogue.ResolvesAll) ∧
      ∀ relations warnings others reports,
        catalogue.impliedRelations = .ok (relations, warnings) →
        (catalogue.withForeignKeys order).impliedRelations = .ok (others, reports) →
        catalogue.SameInAnyOrder relations others ∧ warnings.Perm reports := by
  have hkeys' := hkeys.withForeignKeys order
  refine ⟨exists_impliedRelations_iff hkeys hinjective,
    (exists_impliedRelations_iff hkeys' (hinjective.withForeignKeys order)).trans
      horder.resolvesAll_iff, fun relations warnings others reports himplied hothers => ?_⟩
  obtain ⟨results, hresults, rfl, rfl⟩ := exists_results_of_impliedRelations hkeys himplied
  obtain ⟨reordered, hreordered, rfl, rfl⟩ := exists_results_of_impliedRelations hkeys' hothers
  exact ⟨sameInAnyOrder_relationsByEntity hkeys hagree horder hresults hreordered,
    allWarnings_perm (isReordered_results hkeys hagree horder hresults hreordered)⟩

/-- The foreign keys of each table, the last one first. -/
def reversedKeys (catalogue : Catalogue) (name : String) : List ForeignKey :=
  (catalogue.get? name).elim [] fun table => table.foreignKeys.reverse

end Catalogue

/-- A second key to the keepers implies the name of the first one as well, from another column. -/
def Forest.contested : Catalogue where
  toKeyedList := .ofList
    [("Node", ⟨0, none, "nodes",
        [⟨"id", "id", true⟩, ⟨"keeper_id", "keeper_id", false⟩, ⟨"guard", "guard", false⟩],
        [⟨keyColumn "keeper_id" "keepers.id", []⟩, ⟨keyColumn "guard" "keepers.id", []⟩]⟩),
     ("Keeper", ⟨0, none, "keepers", [⟨"id", "id", true⟩], []⟩)]
  unmapped := []

example : ¬ Forest.contested.NamesAgree ∧
    Forest.contested.impliedRelations.map (fun implied => implied.1.values.map
      (List.map Relation.foreignKey)) = .ok [["keeper_id"], []] ∧
    (Forest.contested.withForeignKeys Forest.contested.reversedKeys).impliedRelations.map
      (fun implied => implied.1.values.map (List.map Relation.foreignKey)) =
        .ok [["guard"], []] := by
  decide +kernel

/-- The keys of the nodes the other way round give their relations the other way round. -/
theorem Catalogue.sameInAnyOrder_tangled :
    Forest.tangled.HasSinglePrimaryKeys ∧ Forest.tangled.IsInjective ∧
      Forest.tangled.NamesAgree ∧ Forest.tangled.IsOrder Forest.tangled.reversedKeys ∧
      Forest.tangled.ResolvesAll ∧
      ∃ relations warnings others reports,
        Forest.tangled.impliedRelations = .ok (relations, warnings) ∧
        (Forest.tangled.withForeignKeys Forest.tangled.reversedKeys).impliedRelations =
          .ok (others, reports) ∧
        Forest.tangled.SameInAnyOrder relations others ∧ warnings.Perm reports ∧
        relations ≠ others := by
  have hkeys := checkPrimaryKeys_eq_ok_iff.1 (by decide +kernel :
    Forest.tangled.checkPrimaryKeys = .ok ())
  have hinjective := checkDistinct_eq_ok_iff.1 (by decide +kernel :
    Forest.tangled.checkDistinct = .ok ())
  have hagree : Forest.tangled.NamesAgree := by decide +kernel
  have horder : Forest.tangled.IsOrder Forest.tangled.reversedKeys := by decide +kernel
  have hresolves := checkReferences_eq_ok_iff.1 (by decide +kernel :
    Forest.tangled.checkReferences = .ok ())
  have hdiffers : Forest.tangled.impliedRelations.map Prod.fst ≠
      (Forest.tangled.withForeignKeys
        Forest.tangled.reversedKeys).impliedRelations.map Prod.fst := by decide +kernel
  obtain ⟨hreturns, hreturns', hsame⟩ := sameInAnyOrder hkeys hinjective hagree horder
  obtain ⟨relations, warnings, himplied⟩ := hreturns.2 hresolves
  obtain ⟨others, reports, hothers⟩ := hreturns'.2 hresolves
  obtain ⟨hrelations, hperm⟩ := hsame relations warnings others reports himplied hothers
  rw [himplied, hothers] at hdiffers
  exact ⟨hkeys, hinjective, hagree, horder, hresolves, relations, warnings, others, reports,
    himplied, hothers, hrelations, hperm, fun heq => hdiffers (congrArg Except.ok heq)⟩

end RequestPlan
