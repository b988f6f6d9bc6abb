import RequestPlan.Catalogue.Schema
import RequestPlan.Proofs.ImpliedRelations

/-!
# The schema of a catalogue

A catalogue has a schema exactly if it is sound, and the schema then says of every table what the
catalogue says of it. A catalogue that is not sound fails as its own checks do: nothing else that is
done to make a schema of it can fail.

* `Relation.IsLastOf`, `Catalogue.exists_relationsOf`: the relations of an entity;
* `Entity.StandsFor`, `Catalogue.exists_entityOf`: the entity of a table;
* `Schema.make_eq_ok_iff`: the candidates that a schema can be made of;
* `Catalogue.EntityFor`, `Schema.Describes`, `Catalogue.parallel_schema`: the schema of a catalogue
  that passes its checks;
* `Catalogue.makesSchema`: all of this, and the failures;
* `Catalogue.not_exists_schema_unplanted`: a key that refers to a table that does not exist.
-/

namespace RequestPlan

/-! ## The relations of an entity -/

namespace Relation

variable {relation : Relation} {relations : List Relation} {name : String}

/-- The relation is in the list, and no later one has its name. -/
def IsLastOf (relation : Relation) (relations : List Relation) : Prop :=
  ∃ earlier later, relations = earlier ++ relation :: later ∧
    relation.name ∉ later.map Relation.name

theorem IsLastOf.mem (h : relation.IsLastOf relations) : relation ∈ relations := by
  obtain ⟨earlier, later, rfl, -⟩ := h
  simp

theorem get?_byName (relations : List Relation) (name : String) :
    (byName relations).get? name =
      relations.reverse.find? fun relation => relation.name = name := by
  rw [byName, KeyedList.get?_ofList, ← List.map_reverse, List.find?_map, Option.map_map]
  exact congrFun Option.map_id _

/-- Of the relations with one name the last one stands under it. -/
theorem get?_byName_eq_some_iff :
    (byName relations).get? name = some relation ↔
      relation.name = name ∧ relation.IsLastOf relations := by
  rw [get?_byName, List.find?_eq_some_iff_append, decide_eq_true_iff]
  refine and_congr_right fun hname => ⟨?_, ?_⟩
  · rintro ⟨later, earlier, hrelations, hlater⟩
    refine ⟨earlier.reverse, later.reverse, ?_, ?_⟩
    · simpa using congrArg List.reverse hrelations
    · simpa [hname] using hlater
  · rintro ⟨earlier, later, rfl, hlater⟩
    exact ⟨later.reverse, earlier.reverse, by simp, by simpa [hname] using hlater⟩

theorem mem_keys_byName_iff :
    name ∈ (byName relations).keys ↔ name ∈ relations.map Relation.name := by
  rw [KeyedList.mem_keys_iff, get?_byName, ← Option.isSome_iff_exists, List.find?_isSome]
  simp

/-- Where all names are different, each relation is the last of its name. -/
theorem isLastOf_iff_mem (hnodup : (relations.map Relation.name).Nodup) :
    relation.IsLastOf relations ↔ relation ∈ relations := by
  refine ⟨IsLastOf.mem, fun h => ?_⟩
  obtain ⟨earlier, later, rfl⟩ := List.append_of_mem h
  refine ⟨earlier, later, rfl, ?_⟩
  rw [List.map_append, List.map_cons] at hnodup
  exact (List.nodup_cons.1 (List.nodup_append.1 hnodup).2.1).1

end Relation

variable {name : String} {table : Table} {declared implied : List Relation}

namespace Catalogue

/-- The relations that were declared last under their names, and the implied ones whose names were
not declared: these two never meet. -/
theorem exists_relationsOf (declared : List Relation)
    (himplied : (implied.map Relation.name).Nodup) :
    ∃ relations, relationsOf declared implied = .ok relations ∧
      ∀ name relation, relations.get? name = some relation ↔ relation.name = name ∧
        (relation.IsLastOf declared ∨
          relation ∈ implied ∧ relation.name ∉ declared.map Relation.name) := by
  obtain ⟨others, heq, hothers⟩ : ∃ others : KeyedList Relation,
      Relation.byName (implied.filter fun relation =>
        !(Relation.byName declared).contains relation.name) = others ∧
      ∀ name relation, others.get? name = some relation ↔ relation.name = name ∧
        relation ∈ implied ∧ relation.name ∉ declared.map Relation.name := by
    refine ⟨_, rfl, fun name relation => ?_⟩
    have hnodup := himplied.sublist ((List.filter_sublist (p := fun relation : Relation =>
      !(Relation.byName declared).contains relation.name)).map Relation.name)
    rw [Relation.get?_byName_eq_some_iff, Relation.isLastOf_iff_mem hnodup, List.mem_filter,
      Bool.not_eq_true', ← Bool.not_eq_true, KeyedList.contains_iff, Relation.mem_keys_byName_iff]
  -- this is why the union of the two never meets a common name
  have hdisjoint : ∀ name ∈ others.keys, name ∉ (Relation.byName declared).keys := by
    intro name hname
    obtain ⟨relation, hrelation⟩ := KeyedList.mem_keys_iff.1 hname
    obtain ⟨rfl, -, hnew⟩ := (hothers name relation).1 hrelation
    rwa [Relation.mem_keys_byName_iff]
  obtain ⟨relations, hmerge, hget⟩ := KeyedList.exists_merge?_eq_ok hdisjoint
  refine ⟨relations, by rw [relationsOf, heq, hmerge], fun name relation => ?_⟩
  rw [hget, Option.or_eq_some_iff, Relation.get?_byName_eq_some_iff, hothers,
    KeyedList.get?_eq_none_iff, Relation.mem_keys_byName_iff]
  grind

end Catalogue

/-! ## The entity of a table -/

/-- The entity has the name, and says of the table what its description says. Its searchable fields
are the given ones, or else the columns but for the primary key; its relations are those declared
last under their names, and the implied ones whose names were not declared. -/
structure Entity.StandsFor (entity : Entity) (name : String) (table : Table)
    (declared implied : List Relation) (fields : Option (List String)) : Prop where
  name : entity.name = name
  tableName : entity.tableName = table.name
  primaryKey : table.primaryKey = [entity.primaryKey]
  tag : entity.tag = Text.snakeCase entity.name
  searchable : ∀ field, field ∈ entity.searchable ↔
    match fields with
    | some fields => field ∈ fields
    | none => field ∈ table.columns.map Column.name ∧ field ≠ entity.primaryKey
  relations : ∀ relation, relation ∈ entity.relations.values ↔
    relation.IsLastOf declared ∨
      relation ∈ implied ∧ relation.name ∉ declared.map Relation.name

theorem Entity.make_eq_ok {name tableName primaryKey : String} {searchable : List String}
    {relations : KeyedList Relation} {tag : Option String}
    (h : ∀ entry ∈ relations.entries, entry.2.name = entry.1) :
    Entity.make name tableName primaryKey searchable relations tag =
      .ok ⟨name, tableName, primaryKey, .ofList searchable, relations,
        (tag.filter (· ≠ "")).getD (Text.snakeCase name), h⟩ := by
  unfold Entity.make
  split
  · next key relation hfind =>
    exact absurd (h _ (List.mem_of_find?_eq_some hfind)) (by simpa using List.find?_some hfind)
  · rfl

/-- A table with a primary key of a single column has an entity. -/
theorem Catalogue.exists_entityOf (name : String) (hkey : table.HasSinglePrimaryKey)
    (declared : List Relation) (himplied : (implied.map Relation.name).Nodup)
    (fields : Option (List String)) :
    ∃ entity, entityOf name table declared implied fields = .ok entity ∧
      entity.StandsFor name table declared implied fields := by
  obtain ⟨primaryKey, hprimary⟩ := List.length_eq_one_iff.1 hkey
  obtain ⟨relations, hrelations, hget⟩ := exists_relationsOf declared himplied
  have hnamed : ∀ entry ∈ relations.entries, entry.2.name = entry.1 := fun entry hentry =>
    ((hget entry.1 entry.2).1 (KeyedList.get?_eq_some_iff.2 hentry)).1
  refine ⟨⟨name, table.name, primaryKey, .ofList (fields.getD (ordinaryColumns table primaryKey)),
    relations, Text.snakeCase name, hnamed⟩, ?_, rfl, rfl, hprimary, rfl, fun field => ?_,
    fun relation => ?_⟩
  · rw [entityOf, Table.singlePrimaryKey_eq_ok_iff.2 hprimary, ok_bind, hrelations, ok_bind,
      Entity.make_eq_ok hnamed]
    rfl
  · cases fields <;> simp [ordinaryColumns]
  · rw [KeyedList.mem_values_iff]
    simp only [hget, exists_eq_left']

/-! ## Schemas of entities -/

namespace Schema

theorem register_eq_ok_iff {known result : KeyedList Entity} {candidate : Candidate} :
    register known candidate = .ok result ↔ ∃ entity, candidate = .entity entity ∧
      entity.name ∉ known.keys ∧ known.insert entity.name entity = result := by
  cases candidate with
  | other value => simp [register]
  | entity entity =>
    simp only [register, KeyedList.contains_iff]
    split <;> simp [*]

/-- Candidates are registered one after the other if they are entities with different names. -/
theorem foldlM_register_eq_ok_iff {candidates : List Candidate} {known result : KeyedList Entity} :
    candidates.foldlM register known = .ok result ↔
      ∃ entities : List Entity, candidates = entities.map .entity ∧
        (known.keys ++ entities.map Entity.name).Nodup ∧
        entities.foldl (fun m entity => m.insert entity.name entity) known = result := by
  induction candidates generalizing known with
  | nil =>
    have hnodup : known.keys.Nodup := known.nodup_keys
    simp [eq_comm (a := []), hnodup]
  | cons candidate candidates ih =>
    simp only [List.foldlM_cons, bind_eq_ok_iff, register_eq_ok_iff, ih]
    constructor
    · rintro ⟨_, ⟨entity, rfl, hnew, rfl⟩, entities, rfl, hnodup, hfold⟩
      refine ⟨entity :: entities, rfl, ?_, hfold⟩
      simpa [KeyedList.keys_insert, hnew] using hnodup
    · rintro ⟨entities, hcandidates, hnodup, hfold⟩
      obtain ⟨entity, entities, rfl, rfl, rfl⟩ := List.map_eq_cons_iff.1 hcandidates.symm
      have hnew : entity.name ∉ known.keys := fun hm =>
        (List.nodup_append.1 hnodup).2.2 _ hm _ List.mem_cons_self rfl
      refine ⟨_, ⟨entity, rfl, hnew, rfl⟩, entities, rfl, ?_, hfold⟩
      simpa [KeyedList.keys_insert, hnew] using hnodup

/-- **A schema can be made of entities with different names and of nothing else, as long as none of
their relations leads to an entity that is not among them.** -/
theorem make_eq_ok_iff {candidates : List Candidate} {schema : Schema} :
    make candidates = .ok schema ↔
      ∃ entities : List Entity, candidates = entities.map .entity ∧
        (entities.map Entity.name).Nodup ∧ (ofEntities entities).IsClosed ∧
        ofEntities entities = schema := by
  have hlast (entities : List Entity) :
      ⟨entities.foldl (fun m entity => m.insert entity.name entity) ∅⟩ = ofEntities entities := by
    rw [ofEntities, KeyedList.ofList, List.foldl_map]
    rfl
  rw [make, bind_eq_ok_iff]
  simp only [foldlM_register_eq_ok_iff]
  constructor
  · rintro ⟨_, ⟨entities, rfl, hnodup, rfl⟩, hmake⟩
    refine ⟨entities, rfl, hnodup, ?_⟩
    rw [← hlast, ← stray?_eq_none_iff]
    split at hmake
    · cases hmake
    · next hstray => exact ⟨hstray, Except.ok.inj hmake⟩
  · rintro ⟨entities, rfl, hnodup, hclosed, rfl⟩
    refine ⟨_, ⟨entities, rfl, hnodup, rfl⟩, ?_⟩
    rw [← hlast, ← stray?_eq_none_iff] at hclosed
    rw [hclosed, hlast]

end Schema

/-! ## The schema of a sound catalogue -/

/-- The entity stands for the table, with the relations that were declared on it and those that its
foreign keys imply: one for each key that leads to an entity, unless an earlier one has its name. -/
def Catalogue.EntityFor (catalogue : Catalogue) (declared : Declarations)
    (searchable : KeyedList (List String)) (name : String) (table : Table) (entity : Entity) :
    Prop :=
  ∃ implied, catalogue.impliedBy table = .ok implied ∧
    catalogue.AccountsFor table table.foreignKeys implied.relations ∧
    entity.StandsFor name table ((declared.get? name).getD []) implied.relations
      (searchable.get? name)

/-- The schema has an entity for every entity of the catalogue and for nothing else, each of them
stands for its table, and no relation leads out of the schema. -/
structure Schema.Describes (schema : Schema) (catalogue : Catalogue)
    (declared : Declarations) (searchable : KeyedList (List String)) : Prop where
  keys : schema.entities.keys = catalogue.keys
  entityFor : ∀ name table, catalogue.get? name = some table → ∃ entity,
    schema.entities.get? name = some entity ∧
      catalogue.EntityFor declared searchable name table entity
  isClosed : schema.IsClosed

namespace Catalogue

variable {catalogue : Catalogue} {declared : Declarations} {relation : Relation}

theorem name_of_entityFor {searchable : KeyedList (List String)} {entity : Entity}
    (h : catalogue.EntityFor declared searchable name table entity) : entity.name = name := by
  obtain ⟨implied, -, -, hstands⟩ := h
  exact hstands.name

/-- The declared relations of an entity lead to entities. -/
theorem target_mem_keys_of_acceptsAll (h : catalogue.AcceptsAll declared)
    (hrelation : relation ∈ (declared.get? name).getD []) :
    relation.targetEntity ∈ catalogue.keys := by
  cases hget : declared.get? name with
  | none => simp [hget] at hrelation
  | some relations =>
    rw [hget, Option.getD_some] at hrelation
    obtain ⟨source, -, haccepts⟩ := h name relations hget
    obtain ⟨target, htarget, -⟩ := haccepts relation hrelation
    exact KeyedList.mem_keys_iff.2 ⟨target, htarget⟩

/-- Where the entities stand for the tables of the catalogue, no relation leads out. -/
theorem describes_of_entityFor {schema : Schema} {searchable : KeyedList (List String)}
    (h : catalogue.AcceptsAll declared) (hkeys : schema.entities.keys = catalogue.keys)
    (hfor : ∀ name table, catalogue.get? name = some table → ∃ entity,
      schema.entities.get? name = some entity ∧
        catalogue.EntityFor declared searchable name table entity) :
    schema.Describes catalogue declared searchable := by
  refine ⟨hkeys, hfor, fun entity hentity relation hrelation => ?_⟩
  obtain ⟨name, hget⟩ := KeyedList.mem_values_iff.1 hentity
  obtain ⟨table, htable⟩ := KeyedList.mem_keys_iff.1
    (hkeys ▸ KeyedList.mem_keys_iff.2 ⟨entity, hget⟩ : name ∈ catalogue.keys)
  obtain ⟨_, hget', implied, -, haccounts, hstands⟩ := hfor name table htable
  obtain rfl := Option.some.inj (hget.symm.trans hget')
  rw [hkeys]
  rcases (hstands.relations relation).1 hrelation with hlast | ⟨hmem, -⟩
  · exact target_mem_keys_of_acceptsAll h hlast.mem
  · exact haccounts.target_mem_keys hmem

/-- Every entry of the catalogue has an entity. -/
theorem exists_entityFor (hkeys : catalogue.HasSinglePrimaryKeys) (declared : Declarations)
    {implied : KeyedList (List Relation)} (himplies : catalogue.Implies implied)
    (searchable : KeyedList (List String)) {entry : String × Table}
    (hmem : entry ∈ catalogue.entries) :
    ∃ entity, entityOf entry.1 entry.2 ((declared.get? entry.1).getD [])
        ((implied.get? entry.1).getD []) (searchable.get? entry.1) = .ok entity ∧
      catalogue.EntityFor declared searchable entry.1 entry.2 entity := by
  obtain ⟨result, hresult, hget⟩ := himplies entry.1 entry.2 (KeyedList.get?_eq_some_iff.2 hmem)
  have haccounts := accountsFor_of_impliedBy hkeys hresult
  have hkey : entry.2.HasSinglePrimaryKey := hkeys _ (List.mem_map.2 ⟨entry, hmem, rfl⟩)
  obtain ⟨entity, hentity, hstands⟩ := exists_entityOf entry.1 hkey
    ((declared.get? entry.1).getD []) haccounts.nodup (searchable.get? entry.1)
  rw [hget, Option.getD_some]
  exact ⟨entity, hentity, result, hresult, haccounts, hstands⟩

/-- The entities of all entries can be made a schema, and it describes the catalogue. -/
theorem describes_ofEntities (h : catalogue.AcceptsAll declared)
    {searchable : KeyedList (List String)} {entities : List Entity}
    (hentities : List.Forall₂ (fun entry entity =>
      catalogue.EntityFor declared searchable entry.1 entry.2 entity) catalogue.entries entities) :
    (entities.map Entity.name).Nodup ∧
      (Schema.ofEntities entities).Describes catalogue declared searchable := by
  -- the entities carry the names of the catalogue, so a look-up by name finds the one of the table
  have hnamed : List.Forall₂ (fun entry result => result.1 = entry.1 ∧
      catalogue.EntityFor declared searchable entry.1 entry.2 result.2)
      catalogue.entries (entities.map fun entity => (entity.name, entity)) :=
    List.forall₂_map_right_iff.2 (hentities.imp fun _ _ hfor => ⟨name_of_entityFor hfor, hfor⟩)
  have hnames := hnamed.imp fun _ _ h => h.1
  constructor
  · have hkeys := KeyedList.map_fst_of_forall₂ hnames
    rw [List.map_map] at hkeys
    exact hkeys ▸ catalogue.nodup_keys
  · exact describes_of_entityFor h (KeyedList.keys_ofList_of_forall₂ hnames)
      fun name table hget => KeyedList.get?_ofList_of_forall₂ hnamed hget

/-- Making a schema of a catalogue fails as the checks of the catalogue do, and gives a schema that
describes it otherwise. -/
theorem parallel_schema (catalogue : Catalogue) (declared : Declarations)
    (searchable : KeyedList (List String)) :
    Parallel (fun made _ => made.1.Describes catalogue declared searchable)
      (catalogue.schema declared searchable) (catalogue.check declared) := by
  refine .of_bind fun _ _ => .of_bind fun _ hprimary => .of_bind fun _ hdeclared => ?_
  have hkeys := checkPrimaryKeys_eq_ok_iff.1 hprimary
  have haccepts := checkDeclared_eq_ok_iff.1 hdeclared
  refine (parallel_impliedRelations hkeys).bind_left ?_
  rintro _ _ ⟨results, hresults, rfl⟩
  obtain ⟨entities, hmap, hentities⟩ := exists_mapM_eq_ok fun _ hmem =>
    exists_entityFor hkeys declared (implies_relationsByEntity hresults) searchable hmem
  obtain ⟨hnodup, hdescribes⟩ := describes_ofEntities haccepts hentities
  have hmake : Schema.make (entities.map Candidate.entity) = .ok (.ofEntities entities) :=
    Schema.make_eq_ok_iff.2 ⟨entities, rfl, hnodup, hdescribes.isClosed, rfl⟩
  exact ⟨(.ofEntities entities, allWarnings results),
    bind_eq_ok_iff.2 ⟨entities, hmap, bind_eq_ok_iff.2 ⟨_, hmake, rfl⟩⟩, hdescribes⟩

/-- A sound catalogue has a schema. -/
theorem exists_schema_of_isSound (h : catalogue.IsSound declared)
    (searchable : KeyedList (List String)) :
    ∃ schema warnings, catalogue.schema declared searchable = .ok (schema, warnings) ∧
      schema.Describes catalogue declared searchable := by
  obtain ⟨⟨schema, warnings⟩, hmade, hdescribes⟩ :=
    (parallel_schema catalogue declared searchable).exists_ok (check_eq_ok_iff.2 h)
  exact ⟨schema, warnings, hmade, hdescribes⟩

/-- A catalogue that a schema was made of is sound, and the schema describes it. -/
theorem describes_of_schema_eq_ok {searchable : KeyedList (List String)} {made : Schema}
    {warnings : List Warning} (h : catalogue.schema declared searchable = .ok (made, warnings)) :
    catalogue.IsSound declared ∧ made.Describes catalogue declared searchable := by
  obtain ⟨_, hcheck, hdescribes⟩ := (parallel_schema catalogue declared searchable).of_ok h
  exact ⟨check_eq_ok_iff.1 hcheck, hdescribes⟩

/-- A catalogue has a schema if it is sound, and the schema describes it. Nothing but its checks can
fail, and these only report what is wrong with the catalogue or with the declared relations. -/
structure MakesSchema (catalogue : Catalogue) (declared : Declarations)
    (searchable : KeyedList (List String)) : Prop where
  exists_iff : (∃ schema warnings,
    catalogue.schema declared searchable = .ok (schema, warnings)) ↔ catalogue.IsSound declared
  describes : ∀ schema warnings, catalogue.schema declared searchable = .ok (schema, warnings) →
    schema.Describes catalogue declared searchable
  error_iff : ∀ e, catalogue.schema declared searchable = .error e ↔
    catalogue.check declared = .error e
  isCatalogueFault : ∀ e, catalogue.schema declared searchable = .error e → e.IsCatalogueFault

/-- **Every catalogue has a schema that describes it, or fails one of its own checks**, the last of
which is that the foreign keys of its tables refer to columns that exist. -/
theorem makesSchema (catalogue : Catalogue) (declared : Declarations)
    (searchable : KeyedList (List String)) : catalogue.MakesSchema declared searchable := by
  have hparallel := parallel_schema catalogue declared searchable
  refine ⟨⟨?_, ?_⟩, ?_, fun e => hparallel.error_iff, fun e he => ?_⟩
  · rintro ⟨schema, warnings, hmade⟩
    exact (describes_of_schema_eq_ok hmade).1
  · intro hsound
    obtain ⟨schema, warnings, hmade, -⟩ := exists_schema_of_isSound hsound searchable
    exact ⟨schema, warnings, hmade⟩
  · intro schema warnings hmade
    exact (describes_of_schema_eq_ok hmade).2
  · exact isCatalogueFault_of_check (hparallel.error_iff.1 he)

end Catalogue

/-- The tables of nodes and keepers; a keeper is referred to by a code. -/
def Forest.catalogue : Catalogue where
  toKeyedList := .ofList
    [("Node", ⟨0, none, "nodes",
        [⟨"id", "id", true⟩, ⟨"name", "name", false⟩, ⟨"parent_id", "parent_id", false⟩,
         ⟨"keeper_code", "keeper_code", false⟩],
        [⟨keyColumn "parent_id" "nodes.id", []⟩,
         ⟨keyColumn "keeper_code" "keepers.code", []⟩]⟩),
     ("Keeper", ⟨0, none, "keepers",
        [⟨"id", "id", true⟩, ⟨"code", "code", false⟩, ⟨"name", "name", false⟩], []⟩)]
  unmapped := []

/-- Relations against the direction of the keys, and one whose name a key implies as well. -/
def Forest.declaredRelations : Declarations := .ofList
  [("Node", [⟨"children", .toMany, "parent_id", "Node", none⟩,
      ⟨"keeper", .toOne, "keeper_code", "Keeper", some "code"⟩]),
   ("Keeper", [⟨"nodes", .toMany, "keeper_code", "Node", some "code"⟩])]

/-- Keepers are only searched by name. -/
def Forest.searchable : KeyedList (List String) := .ofList [("Keeper", ["name"])]

theorem Catalogue.makesSchema_forest :
    Forest.catalogue.check Forest.declaredRelations = .ok () ∧
      ∃ schema warnings,
        Forest.catalogue.schema Forest.declaredRelations Forest.searchable =
          .ok (schema, warnings) ∧
        schema.Describes Forest.catalogue Forest.declaredRelations Forest.searchable := by
  have hcheck : Forest.catalogue.check Forest.declaredRelations = .ok () := by decide +kernel
  have hmakes := makesSchema Forest.catalogue Forest.declaredRelations Forest.searchable
  obtain ⟨schema, warnings, hschema⟩ := hmakes.exists_iff.2 (check_eq_ok_iff.1 hcheck)
  exact ⟨hcheck, schema, warnings, hschema, hmakes.describes schema warnings hschema⟩

/-- Nodes that stand in a soil, without a table of soils. -/
def Forest.unplanted : Catalogue where
  toKeyedList := .ofList
    [("Node", ⟨0, none, "nodes", [⟨"id", "id", true⟩, ⟨"soil_id", "soil_id", false⟩],
        [⟨keyColumn "soil_id" "soils.id", []⟩]⟩)]
  unmapped := []

/-- Nothing is wrong with the tables by themselves, and nothing is declared, but the reference to
the soil leads nowhere. -/
theorem Catalogue.not_exists_schema_unplanted :
    Forest.unplanted.SharesCollection ∧ Forest.unplanted.HasSinglePrimaryKeys ∧
      Forest.unplanted.AcceptsAll ∅ ∧ Forest.unplanted.IsInjective ∧
      Forest.unplanted.schema ∅ ∅ =
        .error (.keyToUnknownTable "nodes" "soil_id" "soils" "id") ∧
      ¬ ∃ schema warnings, Forest.unplanted.schema ∅ ∅ = .ok (schema, warnings) := by
  have hfails : Forest.unplanted.schema ∅ ∅ =
      .error (.keyToUnknownTable "nodes" "soil_id" "soils" "id") := by decide +kernel
  refine ⟨checkCollection_eq_ok_iff.1 (by decide +kernel),
    checkPrimaryKeys_eq_ok_iff.1 (by decide +kernel),
    checkDeclared_eq_ok_iff.1 (by decide +kernel), checkDistinct_eq_ok_iff.1 (by decide +kernel),
    hfails, ?_⟩
  rintro ⟨schema, warnings, hmade⟩
  cases hfails.symm.trans hmade

end RequestPlan
