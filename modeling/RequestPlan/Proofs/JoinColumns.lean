import RequestPlan.Proofs.CanonicalChains
import RequestPlan.Proofs.ClosedSchema
import RequestPlan.Proofs.ForeignKeyJoins

/-!
# The columns of joins

A join goes by the names of columns, and so do implied relations and primary keys. The relations
declared on a catalogue are checked against the keys of columns instead. The two only differ where a
column has a key that is not its name, and there a relation that passes the check can make a join on
a column that does not exist.

* `Catalogue.HasColumn`, `JoinGraph.UsesColumns`: joins on actual columns;
* `Catalogue.NamesColumns`: a relation that goes by the names of columns;
* `Catalogue.hasColumn_iff_namesColumns`: what it takes for a join along a relation;
* `Catalogue.usesColumns_iff`: all joins are on actual columns exactly if the declared relations
  that a request can get to go by their names;
* `Catalogue.not_usesColumns_renamed`: a declared relation that does not.
-/

namespace RequestPlan

/-! ## Relations and joins that go by names -/

/-- The entity has a table with a column of the given name. -/
def Catalogue.HasColumn (catalogue : Catalogue) (entity : Entity) (column : String) : Prop :=
  ∃ table, catalogue.get? entity.name = some table ∧ column ∈ table.columns.map Column.name

instance (catalogue : Catalogue) (entity : Entity) (column : String) :
    Decidable (catalogue.HasColumn entity column) :=
  match h : catalogue.get? entity.name with
  | some table =>
    decidable_of_iff (column ∈ table.columns.map Column.name) (by simp [Catalogue.HasColumn, h])
  | none => isFalse (by simp [Catalogue.HasColumn, h])

/-- Each join is on a column of the table that its source alias stands for and on a column of the
table that it joins. -/
def JoinGraph.UsesColumns (graph : JoinGraph) (catalogue : Catalogue) : Prop :=
  ∀ join ∈ graph.joins,
    (∃ source ∈ graph.closure.members, source.tableAlias = join.sourceAlias ∧
      catalogue.HasColumn source.entity join.sourceKey) ∧
    ∃ target ∈ graph.closure.members, target.tableAlias = join.targetAlias ∧
      catalogue.HasColumn target.entity join.targetKey

instance (graph : JoinGraph) (catalogue : Catalogue) : Decidable (graph.UsesColumns catalogue) :=
  inferInstanceAs (Decidable (∀ _ ∈ _, _))

/-- The foreign key of the relation is the name of a column of the first table, and the key that it
refers to, if it names one, that of a column of the second. -/
def Relation.NamesColumnsOf (relation : Relation) (keyTable referenced : Table) : Prop :=
  relation.foreignKey ∈ keyTable.columns.map Column.name ∧
    ∀ key, relation.namedKey? = some key → key ∈ referenced.columns.map Column.name

/-- The relation leads from the table to that of an entity, and goes by the names of columns of the
tables at whose ends its kind puts its keys. -/
def Catalogue.NamesColumns (catalogue : Catalogue) (source : Table) (relation : Relation) : Prop :=
  ∃ target, catalogue.get? relation.targetEntity = some target ∧
    match relation.kind with
    | .toOne => relation.NamesColumnsOf source target
    | .toMany => relation.NamesColumnsOf target source
    | .unknown _ => False

theorem Table.primaryKey_mem_columns {table : Table} {name : String}
    (h : table.primaryKey = [name]) : name ∈ table.columns.map Column.name := by
  have hmem : name ∈ table.primaryKey := h ▸ List.mem_singleton.2 rfl
  exact (List.filter_sublist.map Column.name).subset hmem

/-- A key that defaults to the primary key is a column exactly if it is one where it is given. -/
theorem Table.getD_mem_columns_iff {table : Table} {primaryKey : String} (key : Option String)
    (h : table.primaryKey = [primaryKey]) :
    key.getD primaryKey ∈ table.columns.map Column.name ↔
      ∀ name, key = some name → name ∈ table.columns.map Column.name := by
  cases key with
  | none => simpa using primaryKey_mem_columns h
  | some name => simp

namespace Catalogue

variable {catalogue : Catalogue} {declared : Declarations}
  {searchable : KeyedList (List String)} {schema : Schema} {warnings : List Warning}
  {source target : Table} {relation : Relation} {entity registered root : Entity}
  {candidate : Candidate} {requested : Option String} {graph : JoinGraph} {start member : Member}
  {join : Join} {name : String}

/-- The relation along a foreign key goes by names. -/
theorem namesColumns_of_leadsAlong (hshares : catalogue.SharesCollection)
    (hlinked : catalogue.IsLinked) (hsource : source ∈ catalogue.values) {key : ForeignKey}
    (hkey : key ∈ source.foreignKeys) (h : catalogue.LeadsAlong source key relation) :
    catalogue.NamesColumns source relation := by
  obtain ⟨column, target, referenced, htarget, hrefers, hnames⟩ :=
    exists_refers_of_leadsAlong hshares hlinked hsource hkey h
  refine ⟨target, htarget, ?_⟩
  rw [hnames.kind]
  refine ⟨?_, fun name hname => ?_⟩
  · rw [hnames.foreignKey]
    exact List.mem_map_of_mem hrefers.column_mem
  · obtain ⟨hsome, -⟩ := Option.filter_eq_some_iff.1 hname
    rw [hnames.referencedKey] at hsome
    split at hsome
    · cases hsome
    · obtain rfl := Option.some.inj hsome
      exact List.mem_map_of_mem hrefers.referenced_mem

/-! ## The tables of the members -/

/-- The catalogue has the table under the name of the entity, whose primary key is that of the table
and whose relations were declared on it or lead along foreign keys of the table. -/
structure Presents (catalogue : Catalogue) (declared : Declarations) (table : Table)
    (entity : Entity) : Prop where
  found : catalogue.get? entity.name = some table
  primaryKey : table.primaryKey = [entity.primaryKey]
  origin : ∀ relation ∈ entity.relations.values,
    relation.IsLastOf ((declared.get? entity.name).getD []) ∨
      ∃ key ∈ table.foreignKeys, catalogue.LeadsAlong table key relation

/-- The order of relations does not matter. -/
theorem Presents.of_same (hsame : entity.Same registered)
    (h : catalogue.Presents declared source registered) :
    catalogue.Presents declared source entity where
  found := hsame.name ▸ h.found
  primaryKey := hsame.primaryKey ▸ h.primaryKey
  origin relation hrelation := by
    have hperm : entity.relations.values.Perm registered.relations.values :=
      hsame.relations.map _
    rw [hsame.name]
    exact h.origin relation (hperm.mem_iff.1 hrelation)

/-- What the schema has under a name is an entity of that name, and presents its table. -/
theorem exists_presents_of_get? (hdescribes : schema.Describes catalogue declared searchable)
    (h : schema.entities.get? name = some entity) :
    entity.name = name ∧ ∃ table, catalogue.Presents declared table entity := by
  have hname : name ∈ catalogue.keys := by
    rw [← hdescribes.keys]
    exact KeyedList.mem_keys_iff.2 ⟨entity, h⟩
  obtain ⟨table, htable⟩ := KeyedList.mem_keys_iff.1 hname
  obtain ⟨_, h', implied, -, haccounts, hstands⟩ := hdescribes.entityFor name table htable
  obtain rfl := Option.some.inj (h.symm.trans h')
  obtain rfl := hstands.name
  refine ⟨rfl, table, htable, hstands.primaryKey, fun relation hrelation => ?_⟩
  rcases (hstands.relations relation).1 hrelation with hlast | ⟨himplied, -⟩
  · exact .inl hlast
  · exact .inr (haccounts.leadsAlong relation himplied)

/-- So does what a plan starts from. -/
theorem exists_presents_of_root (hdescribes : schema.Describes catalogue declared searchable)
    (hroot : schema.root candidate = .ok root) :
    ∃ table, catalogue.Presents declared table root := by
  obtain ⟨registered, hregistered, hsame⟩ := Schema.exists_same_of_root hroot
  obtain ⟨name, hget⟩ := KeyedList.mem_values_iff.1 hregistered
  obtain ⟨-, table, hpresents⟩ := exists_presents_of_get? hdescribes hget
  exact ⟨table, hpresents.of_same hsame⟩

/-- So does every member of a graph. -/
theorem exists_presents_of_mem (hdescribes : schema.Describes catalogue declared searchable)
    (hroot : schema.root candidate = .ok root) (hgraph : graph.FollowsSchema schema root)
    (hmember : member ∈ graph.closure.members) :
    ∃ table, catalogue.Presents declared table member.entity := by
  rcases List.mem_cons.1 hmember with rfl | hjoined
  · rw [hgraph.root_eq]
    exact exists_presents_of_root hdescribes hroot
  · obtain ⟨join, hpaired⟩ := hgraph.exists_join_of_mem_joined hjoined
    obtain ⟨source, relation, -, halong⟩ := hgraph.exists_attaches hpaired
    exact (exists_presents_of_get? hdescribes halong.registered).2

/-- A join along a relation is on actual columns exactly if the relation goes by their names. -/
theorem hasColumn_iff_namesColumns (hdescribes : schema.Describes catalogue declared searchable)
    (hstart : catalogue.Presents declared source start.entity)
    (halong : Step.IsAlong schema start relation ⟨member, join⟩) :
    catalogue.HasColumn start.entity join.sourceKey ∧
        catalogue.HasColumn member.entity join.targetKey ↔
      catalogue.NamesColumns source relation := by
  obtain ⟨hname, target, htarget⟩ := exists_presents_of_get? hdescribes halong.registered
  have hjoin : join.IsAlong start relation member.entity member.tableAlias := halong.join
  have hfound : catalogue.get? relation.targetEntity = some target := hname ▸ htarget.found
  simp only [HasColumn, NamesColumns, hstart.found, htarget.found, hfound, Option.some.injEq,
    exists_eq_left']
  cases hkind : relation.kind with
  | toOne =>
    obtain ⟨-, hsourceKey, htargetKey⟩ := hjoin.toOne hkind
    rw [hsourceKey, htargetKey, Table.getD_mem_columns_iff _ htarget.primaryKey]
    rfl
  | toMany =>
    obtain ⟨-, htargetKey, hsourceKey⟩ := hjoin.toMany hkind
    rw [hsourceKey, htargetKey, Table.getD_mem_columns_iff _ hstart.primaryKey, and_comm]
    rfl
  | unknown kind => exact absurd hjoin.known (by simp [hkind, RelationKind.IsKnown])

/-! ## Relations that a request can get to -/

/-- A relation that some chain has been followed along has a name that a chain can hold. -/
theorem isChainName_of_attaches (hbuild : JoinGraph.build schema root requested = .ok graph)
    (ha : graph.Attaches start relation member join) : Text.IsChainName relation.name := by
  obtain ⟨hmember, -⟩ := List.of_mem_zip ha.paired
  obtain ⟨path, hpath, hfront, -⟩ := JoinGraph.exists_eagerLoad_of_mem_joined hbuild hmember
  have hname : relation.name ∈ member.path := by simp [ha.path]
  exact JoinGraph.isChainName_of_mem_resolvedChains hpath _ (hfront.subset hname)

/-- The relations that count among the declared ones passed their check. -/
theorem accepts_of_isLastOf (hsound : catalogue.IsSound declared)
    (hsource : catalogue.get? name = some source)
    (hlast : relation.IsLastOf ((declared.get? name).getD [])) :
    catalogue.Accepts source relation := by
  have hmem := hlast.mem
  cases hdeclared : declared.get? name with
  | none => simp [hdeclared] at hmem
  | some relations =>
    rw [hdeclared, Option.getD_some] at hmem
    obtain ⟨_, hsource', haccepts⟩ := hsound.acceptsAll name relations hdeclared
    obtain rfl := Option.some.inj (hsource.symm.trans hsource')
    exact haccepts relation hmem

/-- A schema of a catalogue has only kinds with a meaning. -/
theorem hasKnownKinds (hsound : catalogue.IsSound declared)
    (hdescribes : schema.Describes catalogue declared searchable) : schema.HasKnownKinds := by
  intro entity hentity relation hrelation
  obtain ⟨name, hget⟩ := KeyedList.mem_values_iff.1 hentity
  obtain ⟨-, table, hpresents⟩ := exists_presents_of_get? hdescribes hget
  rcases hpresents.origin relation hrelation with hlast | ⟨key, -, _, _, _, _, -, -, -, rfl⟩
  · obtain ⟨target, -, haccepted⟩ := accepts_of_isLastOf hsound hpresents.found hlast
    cases hkind : relation.kind with
    | toOne => trivial
    | toMany => trivial
    | unknown kind =>
      rw [hkind] at haccepted
      exact haccepted.elim
  · trivial

/-- A relation whose name a chain can hold is joined by some request for its entity. -/
theorem exists_attaches_of_isChainName (hclosed : schema.IsClosed) (hkinds : schema.HasKnownKinds)
    (hentity : schema.entities.get? name = some entity)
    (hrelation : entity.relation? relation.name = some relation)
    (hname : Text.IsChainName relation.name) :
    ∃ requested graph member join, JoinGraph.build schema entity requested = .ok graph ∧
      graph.FollowsSchema schema entity ∧
      graph.Attaches graph.closure.root relation member join := by
  -- The empty name at the end makes a text even of the chain of a relation without a name.
  have hchain : ∀ path ∈ [[relation.name, ""]],
      path ≠ [] ∧ Text.chain path ≠ "" ∧ ∀ other ∈ path, Text.IsChainName other := by
    simpa [hname, Text.isChainName_empty] using Text.chain_cons_cons_ne_empty relation.name "" []
  have hread := JoinGraph.chainsOf_intercalate_chain hchain
  have hroot : schema.root (.other (.text name)) = .ok entity := Schema.entity_eq_ok_iff.2 hentity
  generalize ",".intercalate ([[relation.name, ""]].map Text.chain) = requested at hread
  obtain ⟨graph, hbuild⟩ := Schema.exists_build_of_covers hclosed hkinds hroot (some requested)
  have hgraph : graph.FollowsSchema schema entity := by
    obtain ⟨walk, reached, hw, rfl⟩ := JoinGraph.exists_sound_of_build hbuild
    exact JoinGraph.followsSchema_ofWalk hw reached
  obtain ⟨next, hnext⟩ := KeyedList.mem_keys_iff.1 (hclosed entity
    (KeyedList.mem_values_of_get?_eq_some hentity) relation
    (KeyedList.mem_values_of_get?_eq_some hrelation))
  have hpath : [relation.name] ∈ graph.closure.joined.map Member.path := by
    rw [JoinGraph.paths_of_build hbuild, JoinGraph.mem_requestedPaths_iff, Option.getD_some, hread]
    refine ⟨by simp, _, List.mem_singleton.2 rfl, by simp, ?_⟩
    rw [Schema.follow?_cons, Schema.step?_of_relation? hrelation, hnext]
    rfl
  obtain ⟨member, hmember, hmemberPath⟩ := List.mem_map.1 hpath
  obtain ⟨join, hpaired⟩ := hgraph.exists_join_of_mem_joined hmember
  refine ⟨some requested, graph, member, join, hbuild, hgraph, List.mem_cons_self, ?_, hpaired, ?_⟩
  · rwa [hgraph.root_eq]
  · rw [hmemberPath, graph.closure.root_path, List.nil_append]

/-- Where a graph uses columns, so does each join along a relation. -/
theorem hasColumn_of_usesColumns (hgraph : graph.FollowsSchema schema root)
    (huses : graph.UsesColumns catalogue) (ha : graph.Attaches start relation member join) :
    catalogue.HasColumn start.entity join.sourceKey ∧
      catalogue.HasColumn member.entity join.targetKey := by
  have halong := hgraph.isAlong_of_attaches ha
  obtain ⟨hmember, hjoin⟩ := List.of_mem_zip ha.paired
  have hjoinAlong : join.IsAlong start relation member.entity member.tableAlias := halong.join
  obtain ⟨⟨source, hsource, hsourceAlias, hsourceKey⟩, target, htarget, htargetAlias, htargetKey⟩ :=
    huses join hjoin
  -- An alias belongs to one member only.
  obtain rfl : source = start := List.inj_on_of_nodup_map hgraph.aliases_nodup hsource ha.source_mem
    (hsourceAlias.trans hjoinAlong.sourceAlias)
  obtain rfl : target = member := List.inj_on_of_nodup_map hgraph.aliases_nodup htarget
    (List.mem_cons_of_mem _ hmember) (htargetAlias.trans hjoinAlong.targetAlias)
  exact ⟨hsourceKey, htargetKey⟩

/-- Every declared relation that a chain can name goes by the names of columns. -/
def DeclaresColumns (catalogue : Catalogue) (declared : Declarations) : Prop :=
  ∀ name source relation, catalogue.get? name = some source →
    relation.IsLastOf ((declared.get? name).getD []) → Text.IsChainName relation.name →
      catalogue.NamesColumns source relation

/-- Every column has its name for a key. -/
def KeysByName (catalogue : Catalogue) : Prop :=
  ∀ table ∈ catalogue.values, ∀ column ∈ table.columns, column.key = column.name

instance (catalogue : Catalogue) : Decidable catalogue.KeysByName :=
  inferInstanceAs (Decidable (∀ _ ∈ _, _))

/-- Where keys are names the check of declared relations asks for names. -/
theorem declaresColumns_of_keysByName (hsound : catalogue.IsSound declared)
    (hkeys : catalogue.KeysByName) : catalogue.DeclaresColumns declared := by
  have hnamed : ∀ table ∈ catalogue.values, ∀ key, table.hasKey key →
      key ∈ table.columns.map Column.name := by
    intro table htable key hkey
    obtain ⟨column, hfound⟩ := Option.isSome_iff_exists.1 (Table.isSome_column?_iff.2 hkey)
    obtain ⟨hcolumn, rfl⟩ := Table.of_column?_eq_some hfound
    exact List.mem_map.2 ⟨column, hcolumn, (hkeys table htable column hcolumn).symm⟩
  have hcolumns : ∀ keyTable ∈ catalogue.values, ∀ referenced ∈ catalogue.values, ∀ relation,
      Relation.HasKeysIn relation keyTable referenced →
        relation.NamesColumnsOf keyTable referenced := by
    intro keyTable hkeyTable referenced hreferenced relation h
    refine ⟨hnamed keyTable hkeyTable _ h.1, fun key hkey => ?_⟩
    exact hnamed referenced hreferenced key (h.2 key (Option.filter_eq_some_iff.1 hkey).1)
  intro name source relation hsource hlast _
  obtain ⟨target, htarget, haccepted⟩ := accepts_of_isLastOf hsound hsource hlast
  have hsource := KeyedList.mem_values_of_get?_eq_some hsource
  refine ⟨target, htarget, ?_⟩
  replace htarget := KeyedList.mem_values_of_get?_eq_some htarget
  cases hkind : relation.kind with
  | toOne =>
    rw [hkind] at haccepted
    exact hcolumns source hsource target htarget relation haccepted
  | toMany =>
    rw [hkind] at haccepted
    exact hcolumns target htarget source hsource relation haccepted
  | unknown kind =>
    rw [hkind] at haccepted
    exact haccepted.elim

theorem usesColumns_of_declaresColumns (hshares : catalogue.SharesCollection)
    (hlinked : catalogue.IsLinked)
    (hdescribes : schema.Describes catalogue declared searchable)
    (hdeclares : catalogue.DeclaresColumns declared) (hroot : schema.root candidate = .ok root)
    (hbuild : JoinGraph.build schema root requested = .ok graph) :
    graph.UsesColumns catalogue := by
  have hgraph : graph.FollowsSchema schema root := by
    obtain ⟨walk, reached, hw, rfl⟩ := JoinGraph.exists_sound_of_build hbuild
    exact JoinGraph.followsSchema_ofWalk hw reached
  intro join hjoin
  obtain ⟨member, hpaired⟩ := hgraph.exists_member_of_mem_joins hjoin
  obtain ⟨start, relation, ha, halong⟩ := hgraph.exists_attaches hpaired
  obtain ⟨source, hstart⟩ := exists_presents_of_mem hdescribes hroot hgraph ha.source_mem
  have hnames : catalogue.NamesColumns source relation := by
    rcases hstart.origin relation (KeyedList.mem_values_of_get?_eq_some ha.declared) with
      hlast | ⟨key, hkey, hleads⟩
    · exact hdeclares _ source relation hstart.found hlast (isChainName_of_attaches hbuild ha)
    · exact namesColumns_of_leadsAlong hshares hlinked
        (KeyedList.mem_values_of_get?_eq_some hstart.found) hkey hleads
  obtain ⟨hsourceKey, htargetKey⟩ := (hasColumn_iff_namesColumns hdescribes hstart halong).2 hnames
  exact ⟨⟨start, ha.source_mem, halong.join.sourceAlias.symm, hsourceKey⟩,
    member, List.mem_cons_of_mem _ (List.of_mem_zip hpaired).1, halong.join.targetAlias.symm,
    htargetKey⟩

theorem declaresColumns_of_usesColumns (hsound : catalogue.IsSound declared)
    (hdescribes : schema.Describes catalogue declared searchable)
    (huses : ∀ candidate root requested graph, schema.root candidate = .ok root →
      JoinGraph.build schema root requested = .ok graph → graph.UsesColumns catalogue) :
    catalogue.DeclaresColumns declared := by
  intro name source relation hsource hlast hname
  obtain ⟨entity, hentity, implied, -, -, hstands⟩ := hdescribes.entityFor name source hsource
  have hmem : relation ∈ entity.relations.values := (hstands.relations relation).2 (.inl hlast)
  obtain ⟨found, hrelation⟩ := KeyedList.mem_values_iff.1 hmem
  obtain rfl := Entity.name_of_relation?_eq_some hrelation
  obtain ⟨requested, graph, member, join, hbuild, hgraph, ha⟩ := exists_attaches_of_isChainName
    hdescribes.isClosed (hasKnownKinds hsound hdescribes) hentity hrelation hname
  have hroot : schema.root (.other (.text name)) = .ok entity := Schema.entity_eq_ok_iff.2 hentity
  have hcolumns := hasColumn_of_usesColumns hgraph (huses _ _ _ _ hroot hbuild) ha
  have hstart : catalogue.Presents declared source graph.closure.root.entity := by
    obtain ⟨hnamed, table, hpresents⟩ := exists_presents_of_get? hdescribes hentity
    obtain rfl : table = source :=
      Option.some.inj (hpresents.found.symm.trans (hnamed ▸ hsource))
    rwa [hgraph.root_eq]
  exact (hasColumn_iff_namesColumns hdescribes hstart (hgraph.isAlong_of_attaches ha)).1 hcolumns

/-- **The joins of all plans over a catalogue are on actual columns exactly if the declared
relations that a request can name go by the names of columns.** They all do where every column has
its name for a key; other keys pass the check of declared relations without being names. -/
theorem usesColumns_iff
    (hschema : catalogue.schema declared searchable = .ok (schema, warnings))
    (hlinked : catalogue.IsLinked) :
    ((∀ candidate root requested graph, schema.root candidate = .ok root →
        JoinGraph.build schema root requested = .ok graph → graph.UsesColumns catalogue) ↔
      catalogue.DeclaresColumns declared) ∧
    (catalogue.KeysByName → catalogue.DeclaresColumns declared) := by
  obtain ⟨hsound, hdescribes⟩ := describes_of_schema_eq_ok hschema
  refine ⟨⟨declaresColumns_of_usesColumns hsound hdescribes, ?_⟩,
    declaresColumns_of_keysByName hsound⟩
  intro hdeclares candidate root requested graph hroot hbuild
  exact usesColumns_of_declaresColumns hsound.sharesCollection hlinked hdescribes hdeclares hroot
    hbuild

/-- In the catalogue of nodes and keepers every column has its name for a key. -/
theorem usesColumns_forest :
    Forest.catalogue.check Forest.declaredRelations = .ok () ∧
      Forest.catalogue.IsLinked ∧ Forest.catalogue.KeysByName ∧
      ∃ schema warnings,
        Forest.catalogue.schema Forest.declaredRelations Forest.searchable =
          .ok (schema, warnings) ∧
        ∀ candidate root requested graph, schema.root candidate = .ok root →
          JoinGraph.build schema root requested = .ok graph →
            graph.UsesColumns Forest.catalogue := by
  have hcheck : Forest.catalogue.check Forest.declaredRelations = .ok () := by decide +kernel
  have hlinked : Forest.catalogue.IsLinked := by decide +kernel
  have hkeys : Forest.catalogue.KeysByName := by decide +kernel
  obtain ⟨schema, warnings, hschema, -⟩ :=
    exists_schema_of_isSound (check_eq_ok_iff.1 hcheck) Forest.searchable
  obtain ⟨hiff, hdeclares⟩ := usesColumns_iff hschema hlinked
  exact ⟨hcheck, hlinked, hkeys, schema, warnings, hschema, hiff.2 (hdeclares hkeys)⟩

end Catalogue

/-! ## A column with a key of its own -/

/-- Nodes whose parent is in a column that goes by another key. -/
def Forest.renamedCatalogue : Catalogue where
  toKeyedList := .ofList
    [("Node", ⟨0, none, "nodes",
        [⟨"id", "id", true⟩, ⟨"parent_ref", "parent_id", false⟩],
        [⟨⟨⟨"parent_ref", "parent_id", false⟩, .ofText 0 "nodes.id"⟩, []⟩]⟩)]
  unmapped := []

/-- A relation to the parent, declared by that key. -/
def Forest.renamedRelations : Declarations := .ofList
  [("Node", [⟨"parent", .toOne, "parent_id", "Node", none⟩])]

/-- Nodes with the declared relation and the one that the foreign key implies. -/
def Forest.renamedNode : Entity where
  name := "Node"
  tableName := "nodes"
  primaryKey := "id"
  searchable := .ofList ["parent_ref"]
  relations := Relation.byName
    [⟨"parent", .toOne, "parent_id", "Node", none⟩, ⟨"node", .toOne, "parent_ref", "Node", none⟩]
  tag := "node"
  relations_named := by decide +kernel

/-- The graph of the declared relation. -/
def Forest.renamedGraph : JoinGraph where
  closure :=
    { root := ⟨"nodes", renamedNode, []⟩
      joined := [⟨"nodes_1", renamedNode, ["parent"]⟩]
      root_path := rfl }
  joins := [⟨.left, "nodes", "parent_id", "nodes", "nodes_1", "id"⟩]
  eagerLoads := ["parent"]
  eagerLoadTree := [.node "parent" "nodes_1" []]

/-- The declared relation passes the check by its key, and is joined on a column that the table does
not have. -/
theorem Catalogue.not_usesColumns_renamed :
    Forest.renamedCatalogue.IsLinked ∧
      Forest.renamedCatalogue.schema Forest.renamedRelations ∅ =
        .ok (.ofEntities [Forest.renamedNode], []) ∧
      (Schema.ofEntities [Forest.renamedNode]).root (.other (.text "Node")) =
        .ok Forest.renamedNode ∧
      JoinGraph.build (.ofEntities [Forest.renamedNode]) Forest.renamedNode (some "parent") =
        .ok Forest.renamedGraph ∧
      ¬ Forest.renamedGraph.UsesColumns Forest.renamedCatalogue := by
  decide +kernel

end RequestPlan
