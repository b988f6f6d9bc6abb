import Mathlib.Algebra.GroupWithZero.Nat
import RequestPlan.Proofs.CatalogueChecks

/-!
# The relations that foreign keys imply

Where every table has a primary key of a single column, each foreign key whose references lead
somewhere adds a relation or a warning or counts as one of several columns. Nothing fails but the
references that lead nowhere, and these fail as their check does.

* `KeyedList.get?_ofList_of_forall₂`: results under the names of what they come from;
* `Catalogue.get?_of_entity?`: the entity that a reference leads to;
* `relationAlong`, `Catalogue.LeadsAlong`: the relation along a key of a single column;
* `Catalogue.Adds`, `Catalogue.parallel_addKey`: what one foreign key adds;
* `Catalogue.parallel_impliedBy`: what is true of all keys of a table, key by key;
* `Catalogue.AccountsFor`, `Catalogue.accountsFor_of_impliedBy`: what all keys of a table imply;
* `Catalogue.IsResult`, `Catalogue.parallel_impliedRelations`: the keys of each table by themselves;
* `Catalogue.Implies`, `Catalogue.implies_relationsByEntity`: what the keys of all tables imply.
-/

namespace RequestPlan

namespace KeyedList

variable {α β : Type} {m : KeyedList α} {results : List (String × β)}

theorem map_fst_of_forall₂
    (h : List.Forall₂ (fun entry result => result.1 = entry.1) m.entries results) :
    results.map Prod.fst = m.keys := by
  rw [keys, ← List.forall₂_eq_eq_eq, List.forall₂_map_left_iff, List.forall₂_map_right_iff]
  exact h.flip

theorem entries_ofList_of_forall₂
    (h : List.Forall₂ (fun entry result => result.1 = entry.1) m.entries results) :
    (ofList results).entries = results :=
  entries_ofList (map_fst_of_forall₂ h ▸ m.nodup_keys)

theorem keys_ofList_of_forall₂
    (h : List.Forall₂ (fun entry result => result.1 = entry.1) m.entries results) :
    (ofList results).keys = m.keys := by
  rw [keys, entries_ofList_of_forall₂ h, map_fst_of_forall₂ h]

/-- Results that were given the names of the entries they come from are found under them. -/
theorem get?_ofList_of_forall₂ {R : String → α → β → Prop}
    (h : List.Forall₂ (fun entry result => result.1 = entry.1 ∧ R entry.1 entry.2 result.2)
      m.entries results)
    {name : String} {value : α} (hget : m.get? name = some value) :
    ∃ result, (ofList results).get? name = some result ∧ R name value result := by
  obtain ⟨⟨_, result⟩, hmem, rfl, hresult⟩ := exists_result_of_mem h (get?_eq_some_iff.1 hget)
  refine ⟨result, ?_, hresult⟩
  rw [get?_eq_some_iff, entries_ofList_of_forall₂ (h.imp fun _ _ h => h.1)]
  exact hmem

end KeyedList

/-- The column of a foreign key that has only one. -/
def ForeignKey.single? (key : ForeignKey) : Option KeyColumn :=
  if key.others = [] then some key.first else none

/-- The relation along a key of a single column to a column in the table of an entity. It names the
column that it refers to unless that is the primary key. -/
def relationAlong (column : Column) (entity : String) (target : Table) (referenced : Column) :
    Relation :=
  ⟨impliedName column.name entity, .toOne, column.name, entity,
    if target.primaryKey = [referenced.name] then none else some referenced.name⟩

namespace Catalogue

variable {catalogue : Catalogue} {source target : Table} {implied next : Implied}
  {relation : Relation}

/-! ## Referenced tables -/

theorem isReferenced_of_table? {reference : ColumnReference}
    (h : catalogue.table? reference = some target) : target.IsReferenced reference := by
  simpa using List.find?_some h

/-- Where a reference leads to the table of an entity, that is the table it was resolved to. -/
theorem get?_of_entity? {reference : ColumnReference} {entity : String}
    (h : catalogue.table? reference = some target)
    (hentity : catalogue.entity? target = some entity) : catalogue.get? entity = some target := by
  obtain ⟨hcollection, hname⟩ := isReferenced_of_table? h
  -- among the entries, being the resolved table and being referenced are the same
  have hsame : (fun entry : String × Table => decide (entry.2.IsSame target)) =
      fun entry => decide (entry.2.IsReferenced reference) := by
    funext entry
    simp only [Table.IsSame, Table.IsReferenced, hcollection, hname, eq_comm]
  obtain ⟨⟨_, table⟩, hfind, rfl⟩ := Option.map_eq_some_iff.1 hentity
  rw [hsame] at hfind
  have hvalue : catalogue.values.find? (fun table => table.IsReferenced reference) =
      some table := by
    rw [KeyedList.values, List.find?_map]
    exact Option.map_eq_some_iff.2 ⟨_, hfind, rfl⟩
  obtain rfl : table = target := by
    simpa [table?, tables, List.find?_append, hvalue] using h
  exact KeyedList.get?_eq_some_iff.2 (List.mem_of_find?_eq_some hfind)

theorem singlePrimaryKey_of_get? (hkeys : catalogue.HasSinglePrimaryKeys) {name : String}
    (h : catalogue.get? name = some target) : ∃ column, target.primaryKey = [column] :=
  List.length_eq_one_iff.1 (hkeys target (KeyedList.mem_values_of_get?_eq_some h))

theorem referencedKey_eq {primaryKey : String} (h : target.primaryKey = [primaryKey])
    (column : String) :
    referencedKey target column =
      .ok (if target.primaryKey = [column] then none else some column) := by
  rw [referencedKey, Table.singlePrimaryKey_eq_ok_iff.2 h, h]
  simp only [Except.map, List.cons.injEq, and_true, eq_comm]

/-! ## One key -/

/-- The foreign key has a single column and leads to an entity, and the relation is the one along
it. -/
def LeadsAlong (catalogue : Catalogue) (source : Table) (key : ForeignKey) (relation : Relation) :
    Prop :=
  ∃ column target referenced entity, key.single? = some column ∧
    catalogue.resolve source column = .ok (target, referenced) ∧
    catalogue.entity? target = some entity ∧
    relationAlong column.column entity target referenced = relation

theorem LeadsAlong.unique {key : ForeignKey} {other : Relation}
    (h : catalogue.LeadsAlong source key relation) (h' : catalogue.LeadsAlong source key other) :
    relation = other := by
  obtain ⟨column, target, referenced, entity, hsingle, hresolve, hentity, rfl⟩ := h
  obtain ⟨column', target', referenced', entity', hsingle', hresolve', hentity', rfl⟩ := h'
  obtain rfl := Option.some.inj (hsingle.symm.trans hsingle')
  obtain ⟨rfl, rfl⟩ := Prod.ext_iff.1 (Except.ok.inj (hresolve.symm.trans hresolve'))
  obtain rfl := Option.some.inj (hentity.symm.trans hentity')
  rfl

/-- What a foreign key of the table adds to what the keys before it imply. -/
inductive Adds (catalogue : Catalogue) (source : Table) (implied : Implied) :
    ForeignKey → Implied → Prop
  | relation {key : ForeignKey} {column : KeyColumn} {target : Table} {referenced : Column}
      {entity : String} (hsingle : key.single? = some column)
      (hresolve : catalogue.resolve source column = .ok (target, referenced))
      (hentity : catalogue.entity? target = some entity)
      (hnew : (relationAlong column.column entity target referenced).name ∉
        implied.relations.map Relation.name) :
      Adds catalogue source implied key
        { implied with
          relations :=
            implied.relations ++ [relationAlong column.column entity target referenced] }
  | nameTaken {key : ForeignKey} {column : KeyColumn} {target : Table} {referenced : Column}
      {entity : String} (hsingle : key.single? = some column)
      (hresolve : catalogue.resolve source column = .ok (target, referenced))
      (hentity : catalogue.entity? target = some entity)
      (htaken : (relationAlong column.column entity target referenced).name ∈
        implied.relations.map Relation.name) :
      Adds catalogue source implied key
        { implied with
          warnings := implied.warnings ++
            [.nameTaken column.column.name source.fullName
              (relationAlong column.column entity target referenced).name] }
  | outsideSchema {key : ForeignKey} {column : KeyColumn} {target : Table} {referenced : Column}
      (hsingle : key.single? = some column)
      (hresolve : catalogue.resolve source column = .ok (target, referenced))
      (houtside : catalogue.entity? target = none) :
      Adds catalogue source implied key
        { implied with
          warnings := implied.warnings ++
            [.outsideSchema column.column.name source.fullName target.fullName] }
  | composite {key : ForeignKey} (hsingle : key.single? = none) :
      Adds catalogue source implied key { implied with composites := implied.composites + 1 }

/-- The key of a single column whose reference was resolved can be added. -/
theorem exists_addSingle (hkeys : catalogue.HasSinglePrimaryKeys) (implied : Implied)
    {column : KeyColumn} {referenced : Column}
    (hresolve : catalogue.resolve source column = .ok (target, referenced)) :
    ∃ next, catalogue.addSingle source implied column.column target referenced = .ok next ∧
      Adds catalogue source implied ⟨column, []⟩ next := by
  unfold addSingle
  cases hentity : catalogue.entity? target with
  | none => exact ⟨_, rfl, .outsideSchema rfl hresolve hentity⟩
  | some entity =>
    obtain ⟨primaryKey, hprimary⟩ :=
      singlePrimaryKey_of_get? hkeys (get?_of_entity? (resolve_eq_ok_iff.1 hresolve).1 hentity)
    simp only [referencedKey_eq hprimary]
    by_cases hname : (relationAlong column.column entity target referenced).name ∈
        implied.relations.map Relation.name
    · exact ⟨_, if_pos hname, .nameTaken rfl hresolve hentity hname⟩
    · exact ⟨_, if_neg hname, .relation rfl hresolve hentity hname⟩

/-- A foreign key whose references lead somewhere can always be added. -/
theorem parallel_addKey (hkeys : catalogue.HasSinglePrimaryKeys) (source : Table)
    (implied : Implied) (key : ForeignKey) :
    Parallel (fun next _ => Adds catalogue source implied key next)
      (catalogue.addKey source implied key) (catalogue.checkKey source key) := by
  have hresolved : Parallel (fun ends _ => List.Forall₂ (fun column result =>
      catalogue.resolve source column = .ok result) key.columns ends)
      (key.columns.mapM (catalogue.resolve source)) (catalogue.checkKey source key) := by
    refine Parallel.mapM_forM fun column _ => ?_
    cases hresolve : catalogue.resolve source column with
    | ok result => exact .ok rfl
    | error e => exact .error e
  refine hresolved.bind_left fun ends _ hends => ?_
  obtain ⟨first, others⟩ := key
  obtain ⟨⟨target, referenced⟩, results, hfirst, hothers, rfl⟩ :=
    List.forall₂_cons_left_iff.1 hends
  cases hothers with
  | nil => exact exists_addSingle hkeys implied hfirst
  | cons _ _ => exact ⟨_, rfl, .composite rfl⟩

/-- The relations have different names, each of them leads along one of the keys, and every key with
a relation along it has its name among theirs. -/
structure AccountsFor (catalogue : Catalogue) (source : Table) (keys : List ForeignKey)
    (relations : List Relation) : Prop where
  nodup : (relations.map Relation.name).Nodup
  leadsAlong : ∀ relation ∈ relations, ∃ key ∈ keys, catalogue.LeadsAlong source key relation
  named : ∀ key ∈ keys, ∀ relation, catalogue.LeadsAlong source key relation →
    relation.name ∈ relations.map Relation.name

/-- Where no relation is added there was none to add, or its name was taken. -/
theorem AccountsFor.append_of_named {keys : List ForeignKey} {relations : List Relation}
    (h : catalogue.AccountsFor source keys relations) {key : ForeignKey}
    (hkey : ∀ relation, catalogue.LeadsAlong source key relation →
      relation.name ∈ relations.map Relation.name) :
    catalogue.AccountsFor source (keys ++ [key]) relations where
  nodup := h.nodup
  leadsAlong relation hr := by
    obtain ⟨other, hother, hleads⟩ := h.leadsAlong relation hr
    exact ⟨other, List.mem_append_left _ hother, hleads⟩
  named other hother relation hleads := by
    rcases List.mem_append.1 hother with hother | hother
    · exact h.named other hother relation hleads
    · rw [List.mem_singleton.1 hother] at hleads
      exact hkey relation hleads

theorem AccountsFor.append_of_new {keys : List ForeignKey} {relations : List Relation}
    (h : catalogue.AccountsFor source keys relations) {key : ForeignKey}
    (hleads : catalogue.LeadsAlong source key relation)
    (hnew : relation.name ∉ relations.map Relation.name) :
    catalogue.AccountsFor source (keys ++ [key]) (relations ++ [relation]) where
  nodup := by
    rw [List.map_append, List.map_singleton, (List.perm_append_singleton _ _).nodup_iff]
    exact List.nodup_cons.2 ⟨hnew, h.nodup⟩
  leadsAlong other hr := by
    rcases List.mem_append.1 hr with hr | hr
    · obtain ⟨old, hold, hother⟩ := h.leadsAlong other hr
      exact ⟨old, List.mem_append_left _ hold, hother⟩
    · rw [List.mem_singleton.1 hr]
      exact ⟨key, List.mem_append_right _ (List.mem_singleton.2 rfl), hleads⟩
  named old hold other hother := by
    rw [List.map_append, List.mem_append]
    rcases List.mem_append.1 hold with hold | hold
    · exact .inl (h.named old hold other hother)
    · rw [List.mem_singleton.1 hold] at hother
      rw [hother.unique hleads]
      exact .inr (List.mem_singleton.2 rfl)

theorem accountsFor_of_adds {keys : List ForeignKey} {key : ForeignKey}
    (h : catalogue.AccountsFor source keys implied.relations)
    (hadds : Adds catalogue source implied key next) :
    catalogue.AccountsFor source (keys ++ [key]) next.relations := by
  cases hadds with
  | relation hsingle hresolve hentity hnew =>
    exact h.append_of_new ⟨_, _, _, _, hsingle, hresolve, hentity, rfl⟩ hnew
  | nameTaken hsingle hresolve hentity htaken =>
    refine h.append_of_named fun relation hleads => ?_
    rw [hleads.unique ⟨_, _, _, _, hsingle, hresolve, hentity, rfl⟩]
    exact htaken
  | outsideSchema hsingle hresolve houtside =>
    refine h.append_of_named ?_
    rintro _ ⟨_, _, _, entity, hsingle', hresolve', hentity, -⟩
    obtain rfl := Option.some.inj (hsingle.symm.trans hsingle')
    obtain ⟨rfl, rfl⟩ := Prod.ext_iff.1 (Except.ok.inj (hresolve.symm.trans hresolve'))
    simp [houtside] at hentity
  | composite hsingle =>
    refine h.append_of_named ?_
    rintro _ ⟨_, _, _, _, hsingle', -, -, -⟩
    simp [hsingle] at hsingle'

/-! ## All keys -/

theorem AccountsFor.target_mem_keys {keys : List ForeignKey} {relations : List Relation}
    (h : catalogue.AccountsFor source keys relations) (hr : relation ∈ relations) :
    relation.targetEntity ∈ catalogue.keys := by
  obtain ⟨key, -, column, target, referenced, entity, -, hresolve, hentity, rfl⟩ :=
    h.leadsAlong relation hr
  exact KeyedList.mem_keys_iff.2
    ⟨target, get?_of_entity? (resolve_eq_ok_iff.1 hresolve).1 hentity⟩

/-- The foreign keys of a table imply something unless a reference leads nowhere. Of what they imply
anything is true that is true of no keys and kept when a key is added. -/
theorem parallel_impliedBy {motive : List ForeignKey → Implied → Prop}
    (hkeys : catalogue.HasSinglePrimaryKeys) (source : Table) (hfirst : motive [] ⟨[], [], 0⟩)
    (hstep : ∀ keys implied key next, motive keys implied →
      Adds catalogue source implied key next → motive (keys ++ [key]) next) :
    Parallel (fun implied _ => motive source.foreignKeys implied) (catalogue.impliedBy source)
      (catalogue.checkKeys source) := by
  refine Parallel.foldlM_forM hfirst (fun keys implied key h => ?_) source.foreignKeys
  exact (parallel_addKey hkeys source implied key).imp fun next _ hadds =>
    hstep keys implied key next h hadds

/-- The relations that the foreign keys of a table imply account for all of them. -/
theorem accountsFor_of_impliedBy (hkeys : catalogue.HasSinglePrimaryKeys)
    (h : catalogue.impliedBy source = .ok implied) :
    catalogue.AccountsFor source source.foreignKeys implied.relations := by
  obtain ⟨-, -, haccounts⟩ := (parallel_impliedBy (motive := fun keys implied =>
    catalogue.AccountsFor source keys implied.relations) hkeys source ⟨by simp, by simp, by simp⟩
    fun _ _ _ _ h hadds => accountsFor_of_adds h hadds).of_ok h
  exact haccounts

/-- The relations under each entity are those that the foreign keys of its table imply. -/
def Implies (catalogue : Catalogue) (relations : KeyedList (List Relation)) : Prop :=
  ∀ name table, catalogue.get? name = some table →
    ∃ implied, catalogue.impliedBy table = .ok implied ∧
      relations.get? name = some implied.relations

/-- The relations that were found for each entity. -/
def relationsByEntity (results : List (String × Implied)) : KeyedList (List Relation) :=
  .ofList (results.map fun entry => (entry.1, entry.2.relations))

/-- The warnings that were given for the tables, and the one about all keys of several columns. -/
def allWarnings (results : List (String × Implied)) : List Warning :=
  results.flatMap (fun entry => entry.2.warnings) ++
    compositeWarning (results.map fun entry => entry.2.composites).sum

/-- The entry of an entity, and what the foreign keys of its table imply. -/
def IsResult (catalogue : Catalogue) (entry : String × Table) (result : String × Implied) : Prop :=
  result.1 = entry.1 ∧ catalogue.impliedBy entry.2 = .ok result.2

/-- The foreign keys of all tables imply something unless two entities have one table or a reference
leads nowhere: what they imply is what those of each table do. -/
theorem parallel_impliedRelations (hkeys : catalogue.HasSinglePrimaryKeys) :
    Parallel (fun implied _ => ∃ results,
        List.Forall₂ catalogue.IsResult catalogue.entries results ∧
          implied = (relationsByEntity results, allWarnings results))
      catalogue.impliedRelations
      (do catalogue.checkDistinct; catalogue.checkReferences) := by
  refine .of_bind fun _ _ => ?_
  have hentries : Parallel (fun results _ =>
      List.Forall₂ catalogue.IsResult catalogue.entries results)
      (catalogue.entries.mapM fun entry => do
        return (entry.1, ← catalogue.impliedBy entry.2))
      catalogue.checkReferences := by
    refine Parallel.mapM_forM fun entry _ => ?_
    refine (parallel_impliedBy (motive := fun _ _ => True) hkeys entry.2 trivial
      fun _ _ _ _ _ _ => trivial).self.bind_left fun implied _ himplied => ?_
    exact ⟨(entry.1, implied), rfl, rfl, himplied.1⟩
  refine hentries.bind_left fun results _ hresults => ⟨_, rfl, results, hresults, ?_⟩
  rw [relationsByEntity, allWarnings, List.sum_eq_foldl, List.foldl_map]

theorem exists_results_of_impliedRelations (hkeys : catalogue.HasSinglePrimaryKeys)
    {relations : KeyedList (List Relation)} {warnings : List Warning}
    (h : catalogue.impliedRelations = .ok (relations, warnings)) :
    ∃ results, List.Forall₂ catalogue.IsResult catalogue.entries results ∧
      relations = relationsByEntity results ∧ warnings = allWarnings results := by
  obtain ⟨-, -, results, hresults, heq⟩ := (parallel_impliedRelations hkeys).of_ok h
  exact ⟨results, hresults, Prod.ext_iff.1 heq⟩

/-- Where no two entities have one table, only references that lead nowhere are in the way. -/
theorem exists_impliedRelations_iff (hkeys : catalogue.HasSinglePrimaryKeys)
    (hinjective : catalogue.IsInjective) :
    (∃ relations warnings, catalogue.impliedRelations = .ok (relations, warnings)) ↔
      catalogue.ResolvesAll := by
  have hparallel := parallel_impliedRelations hkeys
  rw [checkDistinct_eq_ok_iff.2 hinjective, ok_bind] at hparallel
  rw [← checkReferences_eq_ok_iff]
  constructor
  · rintro ⟨relations, warnings, himplied⟩
    obtain ⟨_, hcheck, -⟩ := hparallel.of_ok himplied
    exact hcheck
  · intro hcheck
    obtain ⟨⟨relations, warnings⟩, himplied, -⟩ := hparallel.exists_ok hcheck
    exact ⟨relations, warnings, himplied⟩

theorem relationsByEntity_forall₂ {results : List (String × Implied)}
    (h : List.Forall₂ catalogue.IsResult catalogue.entries results) :
    List.Forall₂ (fun entry result => result.1 = entry.1 ∧
      ∃ implied, catalogue.impliedBy entry.2 = .ok implied ∧ implied.relations = result.2)
      catalogue.entries (results.map fun entry => (entry.1, entry.2.relations)) :=
  List.forall₂_map_right_iff.2 (h.imp fun _ result h => ⟨h.1, result.2, h.2, rfl⟩)

theorem implies_relationsByEntity {results : List (String × Implied)}
    (h : List.Forall₂ catalogue.IsResult catalogue.entries results) :
    catalogue.Implies (relationsByEntity results) := by
  intro name table hget
  obtain ⟨_, hrelations, implied, himplied, rfl⟩ := KeyedList.get?_ofList_of_forall₂
    (R := fun _ table relations => ∃ implied, catalogue.impliedBy table = .ok implied ∧
      implied.relations = relations) (relationsByEntity_forall₂ h) hget
  exact ⟨implied, himplied, hrelations⟩

end Catalogue

/-- A column of a foreign key that has its name for a key, with the reference that is written in the
text. -/
def Forest.keyColumn (name reference : String) : KeyColumn :=
  ⟨⟨name, name, false⟩, .ofText 0 reference⟩

end RequestPlan
