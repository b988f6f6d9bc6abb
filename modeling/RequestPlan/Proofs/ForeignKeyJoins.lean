import RequestPlan.Proofs.CatalogueSchema
import RequestPlan.Proofs.JoinGraph

/-!
# Joins along foreign keys

A relation that was not declared comes from a foreign key, and whichever way a walk gets to it, the
join along it compares the two columns that the key connects. That the relation leaves out a
referenced primary key does not matter: the join fills it in from the entity at the other end.

* `Catalogue.IsLinked`: foreign keys start from columns of their tables;
* `Table.Refers`: a foreign key of a single column, with the columns at its ends;
* `JoinGraph.Attaches`: the members and joins of a graph that follow a relation;
* `Relation.NamesKey`, `Catalogue.exists_refers_of_leadsAlong`: an implied relation names the
  columns of a foreign key;
* `Catalogue.FollowsForeignKey`, `Catalogue.followsForeignKey_of_schema`: the joins along the
  relations that were not declared.
-/

namespace RequestPlan

/-! ## Tables with foreign keys -/

/-- Foreign keys start from columns of their tables. A database has no others. -/
def Catalogue.IsLinked (catalogue : Catalogue) : Prop :=
  ∀ source ∈ catalogue.values, ∀ key ∈ source.foreignKeys, ∀ column ∈ key.columns,
    column.column ∈ source.columns

instance (catalogue : Catalogue) : Decidable catalogue.IsLinked :=
  inferInstanceAs (Decidable (∀ _ ∈ _, _))

/-- Every column has a name. -/
def Catalogue.NamesAllColumns (catalogue : Catalogue) : Prop :=
  ∀ table ∈ catalogue.values, ∀ column ∈ table.columns, column.name ≠ ""

instance (catalogue : Catalogue) : Decidable catalogue.NamesAllColumns :=
  inferInstanceAs (Decidable (∀ _ ∈ _, _))

/-- A foreign key of the first table consists of the given column and refers to a column of the
second table. -/
structure Table.Refers (source : Table) (column : Column) (target : Table) (referenced : Column) :
    Prop where
  column_mem : column ∈ source.columns
  referenced_mem : referenced ∈ target.columns
  collection : source.collection = target.collection
  key_mem :
    ⟨⟨column, ⟨target.collection, target.fullName, referenced.key⟩⟩, []⟩ ∈ source.foreignKeys

theorem ForeignKey.eq_of_single?_eq_some {key : ForeignKey} {column : KeyColumn}
    (h : key.single? = some column) : key = ⟨column, []⟩ := by
  obtain ⟨first, others⟩ := key
  unfold single? at h
  split at h
  · next hnil =>
    obtain rfl : first = column := by simpa using h
    obtain rfl : others = [] := hnil
    rfl
  · cases h

/-! ## The joins along a relation -/

/-- The graph has attached a member to another one along a relation, by a join that stands in its
place. -/
structure JoinGraph.Attaches (graph : JoinGraph) (source : Member) (relation : Relation)
    (member : Member) (join : Join) : Prop where
  source_mem : source ∈ graph.closure.members
  declared : source.entity.relation? relation.name = some relation
  paired : (member, join) ∈ graph.closure.joined.zip graph.joins
  path : member.path = source.path ++ [relation.name]

namespace JoinGraph.FollowsSchema

variable {schema : Schema} {root : Entity} {graph : JoinGraph} {source member : Member}
  {relation : Relation} {join : Join}

/-- Every member that was joined, and every join, is attached along a relation. -/
theorem exists_attaches (h : graph.FollowsSchema schema root)
    (hpaired : (member, join) ∈ graph.closure.joined.zip graph.joins) :
    ∃ source relation, graph.Attaches source relation member join ∧
      Step.IsAlong schema source relation ⟨member, join⟩ := by
  obtain ⟨i, hi⟩ := List.mem_iff_getElem?.1 hpaired
  obtain ⟨hmember, hjoin⟩ := List.getElem?_zip_eq_some.1 hi
  obtain ⟨source, hsource, relation, halong⟩ := h.attached i member join hmember hjoin
  exact ⟨source, relation, ⟨List.mem_of_mem_take hsource, halong.declared, hpaired, halong.path⟩,
    halong⟩

/-- Every joined member has a join. -/
theorem exists_join_of_mem_joined (h : graph.FollowsSchema schema root)
    (hmember : member ∈ graph.closure.joined) :
    ∃ join, (member, join) ∈ graph.closure.joined.zip graph.joins := by
  rw [← List.map_fst_zip (Nat.le_of_eq h.length_joins.symm)] at hmember
  obtain ⟨⟨_, join⟩, hpaired, rfl⟩ := List.mem_map.1 hmember
  exact ⟨join, hpaired⟩

/-- Every join has a joined member. -/
theorem exists_member_of_mem_joins (h : graph.FollowsSchema schema root)
    (hjoin : join ∈ graph.joins) :
    ∃ member, (member, join) ∈ graph.closure.joined.zip graph.joins := by
  rw [← List.map_snd_zip (Nat.le_of_eq h.length_joins)] at hjoin
  obtain ⟨⟨member, _⟩, hpaired, rfl⟩ := List.mem_map.1 hjoin
  exact ⟨member, hpaired⟩

/-- What is attached along a relation follows it: the path says which relation and from where. -/
theorem isAlong_of_attaches (h : graph.FollowsSchema schema root)
    (ha : graph.Attaches source relation member join) :
    Step.IsAlong schema source relation ⟨member, join⟩ := by
  obtain ⟨source', relation', ha', halong⟩ := h.exists_attaches ha.paired
  obtain ⟨hfront, hlast⟩ := List.append_inj' (ha.path.symm.trans ha'.path) rfl
  obtain rfl : source = source' :=
    List.inj_on_of_nodup_map h.paths_nodup ha.source_mem ha'.source_mem hfront
  obtain hname : relation.name = relation'.name := by simpa using hlast
  obtain rfl : relation = relation' := by
    simpa [hname, ha'.declared] using ha.declared.symm
  exact halong

end JoinGraph.FollowsSchema

/-! ## Relations from foreign keys -/

/-- The relation has the names of the columns that a foreign key connects, but for that of a primary
key it refers to. -/
structure Relation.NamesKey (relation : Relation) (column : Column) (target : Table)
    (referenced : Column) : Prop where
  kind : relation.kind = .toOne
  foreignKey : relation.foreignKey = column.name
  referencedKey : relation.referencedKey =
    if target.primaryKey = [referenced.name] then none else some referenced.name

/-- The join compares the given columns of its two ends, from the left, and its target is the entity
that the schema has for the table under the given name. -/
structure Join.Connects (schema : Schema) (source : Member) (column : Column) (name : String)
    (target : Table) (referenced : Column) (member : Member) (join : Join) : Prop where
  direction : join.direction = .left
  sourceAlias : join.sourceAlias = source.tableAlias
  sourceKey : join.sourceKey = column.name
  targetAlias : join.targetAlias = member.tableAlias
  targetTable : join.targetTable = target.name
  targetKey : join.targetKey = referenced.name
  registered : schema.entities.get? name = some member.entity
  tableName : member.entity.tableName = target.name

/-- The relation follows a foreign key of the table of an entity. Whatever a plan starts from and
asks for, the joins along the relation compare the columns of the key and lead to the one entity
that has the table it refers to. -/
def Catalogue.FollowsForeignKey (catalogue : Catalogue) (schema : Schema) (name : String)
    (relation : Relation) : Prop :=
  ∃ source column target referenced,
    catalogue.get? name = some source ∧ source.Refers column target referenced ∧
    catalogue.get? relation.targetEntity = some target ∧
    (∀ other table, catalogue.get? other = some table → table.IsSame target →
      other = relation.targetEntity) ∧
    ∀ root requested graph, JoinGraph.build schema root requested = .ok graph →
      ∀ start member join, graph.Attaches start relation member join →
        join.Connects schema start column relation.targetEntity target referenced member

namespace Catalogue

variable {catalogue : Catalogue} {declared : Declarations}
  {searchable : KeyedList (List String)} {schema : Schema} {warnings : List Warning}
  {source target : Table} {relation : Relation} {key : ForeignKey} {name : String}
  {entity : Entity} {column referenced : Column}

/-- The relation along a foreign key names the columns at its ends. -/
theorem exists_refers_of_leadsAlong (hshares : catalogue.SharesCollection)
    (hlinked : catalogue.IsLinked) (hsource : source ∈ catalogue.values)
    (hkey : key ∈ source.foreignKeys)
    (h : catalogue.LeadsAlong source key relation) :
    ∃ column target referenced, catalogue.get? relation.targetEntity = some target ∧
      source.Refers column target referenced ∧ relation.NamesKey column target referenced := by
  obtain ⟨⟨column, reference⟩, target, referenced, entity, hsingle, hresolve, hentity, rfl⟩ := h
  obtain rfl := ForeignKey.eq_of_single?_eq_some hsingle
  obtain ⟨htable, hreferenced⟩ := resolve_eq_ok_iff.1 hresolve
  obtain ⟨hcollection, hname⟩ := isReferenced_of_table? htable
  obtain ⟨hmem, hreferencedKey⟩ := Table.of_column?_eq_some hreferenced
  have htarget := get?_of_entity? htable hentity
  refine ⟨column, target, referenced, htarget,
    ⟨hlinked source hsource _ hkey _ List.mem_cons_self, hmem,
      hshares source hsource target (KeyedList.mem_values_of_get?_eq_some htarget), ?_⟩,
    ⟨rfl, rfl, rfl⟩⟩
  rw [← hcollection, ← hname, hreferencedKey]
  exact hkey

/-- A join along such a relation compares the two columns. Where the relation leaves out the primary
key it is that of the entity, and the entity has it from the table. -/
theorem connects_of_isAlong (hdescribes : schema.Describes catalogue declared searchable)
    (htarget : catalogue.get? relation.targetEntity = some target)
    (hnames : relation.NamesKey column target referenced) (hname : referenced.name ≠ "")
    {start member : Member} {join : Join}
    (halong : Step.IsAlong schema start relation ⟨member, join⟩) :
    join.Connects schema start column relation.targetEntity target referenced member := by
  obtain ⟨entity, hentity, implied, -, -, hstands⟩ := hdescribes.entityFor _ _ htarget
  have hregistered : schema.entities.get? relation.targetEntity = some member.entity :=
    halong.registered
  obtain rfl : member.entity = entity := by simpa [hregistered] using hentity
  have hjoin : join.IsAlong start relation member.entity member.tableAlias := halong.join
  obtain ⟨hdirection, hsourceKey, htargetKey⟩ := hjoin.toOne hnames.kind
  refine ⟨hdirection, hjoin.sourceAlias, hsourceKey.trans hnames.foreignKey, hjoin.targetAlias,
    hjoin.targetTable.trans hstands.tableName, ?_, hregistered, hstands.tableName⟩
  rw [htargetKey, Relation.namedKey?, hnames.referencedKey, hstands.primaryKey]
  by_cases hprimary : member.entity.primaryKey = referenced.name
  · simp [hprimary]
  · simp [hprimary, Option.filter_some, hname]

/-- **Foreign keys survive the way through a schema into the joins of a plan.** Each relation of an
entity that was not declared follows a foreign key of its table. -/
theorem followsForeignKey_of_schema
    (hschema : catalogue.schema declared searchable = .ok (schema, warnings))
    (hlinked : catalogue.IsLinked) (hnamed : catalogue.NamesAllColumns)
    (hentity : schema.entities.get? name = some entity)
    (hrelation : relation ∈ entity.relations.values)
    (hdeclared : relation ∉ (declared.get? name).getD []) :
    catalogue.FollowsForeignKey schema name relation := by
  obtain ⟨hsound, hdescribes⟩ := describes_of_schema_eq_ok hschema
  have hname : name ∈ catalogue.keys := by
    rw [← hdescribes.keys]
    exact KeyedList.mem_keys_iff.2 ⟨entity, hentity⟩
  obtain ⟨source, hsource⟩ := KeyedList.mem_keys_iff.1 hname
  obtain ⟨_, hentity', implied, -, haccounts, hstands⟩ := hdescribes.entityFor name source hsource
  obtain rfl := Option.some.inj (hentity.symm.trans hentity')
  rcases (hstands.relations relation).1 hrelation with hlast | ⟨himplied, -⟩
  · exact absurd hlast.mem hdeclared
  · obtain ⟨key, hkey, hleads⟩ := haccounts.leadsAlong relation himplied
    obtain ⟨column, target, referenced, htarget, hrefers, hnames⟩ := exists_refers_of_leadsAlong
      hsound.sharesCollection hlinked (KeyedList.mem_values_of_get?_eq_some hsource) hkey hleads
    refine ⟨source, column, target, referenced, hsource, hrefers, htarget, ?_, ?_⟩
    · intro other table hother hsame
      exact hsound.isInjective other table _ target hother htarget hsame
    · intro root requested graph hbuild start member join hattaches
      obtain ⟨walk, reached, hw, rfl⟩ := JoinGraph.exists_sound_of_build hbuild
      have halong := (JoinGraph.followsSchema_ofWalk hw reached).isAlong_of_attaches hattaches
      have hreferenced : referenced.name ≠ "" := hnamed target
        (KeyedList.mem_values_of_get?_eq_some htarget) referenced hrefers.referenced_mem
      exact connects_of_isAlong hdescribes htarget hnames hreferenced halong

end Catalogue

/-! ## The keys of nodes -/

/-- The relation that the key to the code of a keeper implies. -/
def Forest.keeperRelation : Relation :=
  ⟨"keeper", .toOne, "keeper_code", "Keeper", some "code"⟩

/-- Nodes with the relations that their foreign keys imply. -/
def Forest.keyedNode : Entity where
  name := "Node"
  tableName := "nodes"
  primaryKey := "id"
  searchable := .ofList ["name", "parent_id", "keeper_code"]
  relations := Relation.byName [⟨"parent", .toOne, "parent_id", "Node", none⟩, keeperRelation]
  tag := "node"
  relations_named := by decide +kernel

/-- Keepers, whose table has no foreign keys. -/
def Forest.keyedKeeper : Entity where
  name := "Keeper"
  tableName := "keepers"
  primaryKey := "id"
  searchable := .ofList ["code", "name"]
  relations := ∅
  tag := "keeper"
  relations_named := by decide

/-- Nodes and keepers without any declared relations. -/
def Forest.keyedSchema : Schema := .ofEntities [keyedNode, keyedKeeper]

/-- The graph of a node with its keeper. -/
def Forest.keeperGraph : JoinGraph where
  closure :=
    { root := ⟨"nodes", keyedNode, []⟩
      joined := [⟨"keepers", keyedKeeper, ["keeper"]⟩]
      root_path := rfl }
  joins := [⟨.left, "nodes", "keeper_code", "keepers", "keepers", "code"⟩]
  eagerLoads := ["keeper"]
  eagerLoadTree := [.node "keeper" "keepers" []]

/-- A foreign key that refers to a column beside the primary key, and a join along it. -/
theorem Catalogue.followsForeignKey_forest :
    Forest.catalogue.schema ∅ ∅ = .ok (Forest.keyedSchema, []) ∧
      Forest.catalogue.IsLinked ∧ Forest.catalogue.NamesAllColumns ∧
      Forest.keyedSchema.entities.get? "Node" = some Forest.keyedNode ∧
      Forest.keeperRelation ∈ Forest.keyedNode.relations.values ∧
      Forest.keeperRelation ∉ ((∅ : Declarations).get? "Node").getD [] ∧
      Forest.catalogue.FollowsForeignKey Forest.keyedSchema "Node" Forest.keeperRelation ∧
      JoinGraph.build Forest.keyedSchema Forest.keyedNode (some "keeper") =
        .ok Forest.keeperGraph ∧
      Forest.keeperGraph.Attaches ⟨"nodes", Forest.keyedNode, []⟩ Forest.keeperRelation
        ⟨"keepers", Forest.keyedKeeper, ["keeper"]⟩
        ⟨.left, "nodes", "keeper_code", "keepers", "keepers", "code"⟩ := by
  have hschema : Forest.catalogue.schema ∅ ∅ = .ok (Forest.keyedSchema, []) := by decide +kernel
  have hlinked : Forest.catalogue.IsLinked := by decide +kernel
  have hnamed : Forest.catalogue.NamesAllColumns := by decide +kernel
  have hentity : Forest.keyedSchema.entities.get? "Node" = some Forest.keyedNode := by
    decide +kernel
  have hrelation : Forest.keeperRelation ∈ Forest.keyedNode.relations.values := by decide +kernel
  have hdeclared : Forest.keeperRelation ∉
      ((∅ : Declarations).get? "Node").getD [] := by decide
  exact ⟨hschema, hlinked, hnamed, hentity, hrelation, hdeclared,
    followsForeignKey_of_schema hschema hlinked hnamed hentity hrelation hdeclared,
    by decide +kernel, ⟨by decide +kernel, by decide +kernel, by decide +kernel, rfl⟩⟩

end RequestPlan
