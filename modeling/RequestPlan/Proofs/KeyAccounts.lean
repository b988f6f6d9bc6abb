import Mathlib.Algebra.BigOperators.Group.List.Basic
import RequestPlan.Proofs.ImpliedRelations

/-!
# What becomes of every foreign key

Every foreign key of a table ends up in one place: it has a relation, a warning is about it, or it
is counted among the keys of several columns. A relation stands in for the warning that its key
would get if its name were taken, so relations and warnings together are the keys of single columns
in any order.

* `Catalogue.refusal?`, `Relation.refusal`: the warning that a key gets unless it adds a relation;
* `Catalogue.Balances`, `Catalogue.balances_of_adds`, `Catalogue.balances_of_impliedBy`: what one
  key and what all keys of a table add up to;
* `Warning.keyCount`: the number of keys that a warning is about;
* `Catalogue.LosesNoKey`, `Catalogue.losesNoKey`: what the keys of all tables add up to.
-/

namespace RequestPlan

/-- The number of foreign keys that a warning is about. -/
def Warning.keyCount : Warning → ℕ
  | outsideSchema .. | nameTaken .. => 1
  | compositeKeys count => count

/-- The warning is about a key that leads to no entity. -/
def Warning.isOutsideSchema : Warning → Bool
  | outsideSchema .. => true
  | _ => false

/-- The warning is about a key whose name is in use. -/
def Warning.isNameTaken : Warning → Bool
  | nameTaken .. => true
  | _ => false

/-- The warning is about keys of several columns. -/
def Warning.isComposite : Warning → Bool
  | compositeKeys _ => true
  | _ => false

/-- The number of keys of several columns that a warning reports. -/
def Warning.compositeCount : Warning → ℕ
  | compositeKeys count => count
  | _ => 0

theorem Warning.keyCount_eq_one {warning : Warning} (h : warning.isComposite = false) :
    warning.keyCount = 1 := by
  cases warning with
  | compositeKeys count => simp [isComposite] at h
  | _ => rfl

/-- The keys that warnings are about, by the kind of the warning. -/
theorem Warning.sum_keyCount (warnings : List Warning) :
    (warnings.map keyCount).sum = warnings.countP isOutsideSchema + warnings.countP isNameTaken +
      (warnings.map compositeCount).sum := by
  induction warnings with
  | nil => rfl
  | cons warning warnings ih =>
    rw [List.map_cons, List.sum_cons, ih, List.countP_cons, List.countP_cons, List.map_cons,
      List.sum_cons]
    cases warning <;>
      simp only [keyCount, isOutsideSchema, isNameTaken, compositeCount, if_true,
        Bool.false_eq_true, if_false] <;> omega

/-- The warning that the foreign key of a relation would get if the name were taken. -/
def Relation.refusal (source : Table) (relation : Relation) : Warning :=
  .nameTaken relation.foreignKey source.fullName relation.name

namespace Catalogue

variable {catalogue : Catalogue} {source : Table} {keys : List ForeignKey} {implied next : Implied}
  {key : ForeignKey}

/-! ## The keys of one table -/

/-- The entity that a reference leads to. -/
def referenced? (catalogue : Catalogue) (reference : ColumnReference) : Option String :=
  (catalogue.table? reference).bind catalogue.entity?

theorem referenced?_of_resolve {column : KeyColumn} {target : Table} {referenced : Column}
    (h : catalogue.resolve source column = .ok (target, referenced)) :
    catalogue.referenced? column.reference = catalogue.entity? target := by
  rw [referenced?, (resolve_eq_ok_iff.1 h).1, Option.bind_some]

/-- The warning that a foreign key gets unless it adds a relation. Keys of several columns get none
of their own. -/
def refusal? (catalogue : Catalogue) (source : Table) (key : ForeignKey) : Option Warning :=
  key.single?.map fun column =>
    match catalogue.referenced? column.reference with
    | some entity =>
      .nameTaken column.column.name source.fullName (impliedName column.column.name entity)
    | none => .outsideSchema column.column.name source.fullName column.reference.table

theorem refusal?_of_entity? {column : KeyColumn} {target : Table} {referenced : Column}
    {entity : String} (hsingle : key.single? = some column)
    (hresolve : catalogue.resolve source column = .ok (target, referenced))
    (hentity : catalogue.entity? target = some entity) :
    catalogue.refusal? source key =
      some ((relationAlong column.column entity target referenced).refusal source) := by
  rw [refusal?, hsingle, Option.map_some, referenced?_of_resolve hresolve, hentity]
  rfl

theorem refusal?_of_outside {column : KeyColumn} {target : Table} {referenced : Column}
    (hsingle : key.single? = some column)
    (hresolve : catalogue.resolve source column = .ok (target, referenced))
    (houtside : catalogue.entity? target = none) :
    catalogue.refusal? source key =
      some (.outsideSchema column.column.name source.fullName target.fullName) := by
  obtain ⟨-, hname⟩ := isReferenced_of_table? (resolve_eq_ok_iff.1 hresolve).1
  rw [refusal?, hsingle, Option.map_some, referenced?_of_resolve hresolve, houtside, ← hname]

theorem refusal?_eq_none_iff : catalogue.refusal? source key = none ↔ key.single? = none :=
  Option.map_eq_none_iff

theorem isComposite_of_refusal? {warning : Warning}
    (h : catalogue.refusal? source key = some warning) : warning.isComposite = false := by
  obtain ⟨column, -, rfl⟩ := Option.map_eq_some_iff.1 h
  split <;> rfl

/-- Each of the keys has a relation or a warning, or is one of several columns. -/
structure Balances (catalogue : Catalogue) (source : Table) (keys : List ForeignKey)
    (implied : Implied) : Prop where
  perm : (implied.relations.map (Relation.refusal source) ++ implied.warnings).Perm
    (keys.filterMap (catalogue.refusal? source))
  composites : implied.composites = keys.countP fun key => key.single?.isNone

theorem Balances.concat_single {warning : Warning} (h : catalogue.Balances source keys implied)
    (hrefusal : catalogue.refusal? source key = some warning)
    (hperm : (next.relations.map (Relation.refusal source) ++ next.warnings).Perm
      (implied.relations.map (Relation.refusal source) ++ implied.warnings ++ [warning]))
    (hcomposites : next.composites = implied.composites) :
    catalogue.Balances source (keys ++ [key]) next where
  perm := by
    rw [List.filterMap_append, List.filterMap_cons_some hrefusal, List.filterMap_nil]
    exact hperm.trans (h.perm.append_right _)
  composites := by
    have hsingle : key.single? ≠ none := by
      intro hnone
      rw [refusal?_eq_none_iff.2 hnone] at hrefusal
      cases hrefusal
    rw [hcomposites, h.composites]
    simp [hsingle]

/-- One more key adds a relation, a warning, or to the number of keys of several columns. -/
theorem balances_of_adds (h : catalogue.Balances source keys implied)
    (hadds : Adds catalogue source implied key next) :
    catalogue.Balances source (keys ++ [key]) next := by
  cases hadds with
  | relation hsingle hresolve hentity hnew =>
    -- The new relation stands before the warnings, and the new key after all others.
    refine h.concat_single (refusal?_of_entity? hsingle hresolve hentity) ?_ rfl
    rw [List.map_append, List.map_singleton, List.append_assoc, List.append_assoc]
    exact List.perm_append_comm.append_left _
  | nameTaken hsingle hresolve hentity htaken =>
    refine h.concat_single (refusal?_of_entity? hsingle hresolve hentity) ?_ rfl
    rw [List.append_assoc]
    exact .refl _
  | outsideSchema hsingle hresolve houtside =>
    refine h.concat_single (refusal?_of_outside hsingle hresolve houtside) ?_ rfl
    rw [List.append_assoc]
  | composite hsingle =>
    refine ⟨?_, ?_⟩
    · rw [List.filterMap_append, List.filterMap_cons_none (refusal?_eq_none_iff.2 hsingle),
        List.filterMap_nil, List.append_nil]
      exact h.perm
    · rw [List.countP_append, ← h.composites]
      simp [hsingle]

theorem balances_of_impliedBy (hkeys : catalogue.HasSinglePrimaryKeys)
    (h : catalogue.impliedBy source = .ok implied) :
    catalogue.Balances source source.foreignKeys implied := by
  obtain ⟨-, -, hbalances⟩ := (parallel_impliedBy (motive := catalogue.Balances source) hkeys source
    ⟨.refl _, rfl⟩ fun _ _ _ _ h hadds => balances_of_adds h hadds).of_ok h
  exact hbalances

theorem Balances.isComposite_eq_false (h : catalogue.Balances source keys implied)
    {warning : Warning} (hwarning : warning ∈ implied.warnings) : warning.isComposite = false := by
  obtain ⟨key, -, hrefusal⟩ :=
    List.mem_filterMap.1 (h.perm.subset (List.mem_append_right _ hwarning))
  exact isComposite_of_refusal? hrefusal

/-- The relations, the warnings and the keys of several columns are as many as the keys. -/
theorem Balances.length_eq (h : catalogue.Balances source keys implied) :
    keys.length =
      implied.relations.length + (implied.warnings.map Warning.keyCount).sum +
        implied.composites := by
  have hone : implied.warnings.map Warning.keyCount = implied.warnings.map fun _ => 1 :=
    List.map_congr_left fun _ hw => Warning.keyCount_eq_one (h.isComposite_eq_false hw)
  have hwarnings : (implied.warnings.map Warning.keyCount).sum = implied.warnings.length := by
    rw [hone, List.map_const', List.sum_replicate_nat, mul_one]
  have hperm := h.perm.length_eq
  rw [List.length_append, List.length_map, List.length_filterMap_eq_countP] at hperm
  have hsingles : keys.countP (fun key => (catalogue.refusal? source key).isSome) =
      keys.countP fun key => ¬ key.single?.isNone := by
    refine List.countP_congr fun key _ => ?_
    rw [refusal?, Option.isSome_map, decide_eq_true_iff, Bool.not_eq_true,
      Option.isNone_eq_false_iff]
  rw [hwarnings, hperm, hsingles, h.composites,
    List.length_eq_countP_add_countP fun key : ForeignKey => key.single?.isNone, add_comm]

/-! ## The keys of all tables -/

/-- Relations and warnings account for the foreign keys of all tables. Every entity has the
relations of its table, and the keys are as many as the relations and the keys that the warnings are
about; one warning at most is about keys of several columns. -/
structure LosesNoKey (catalogue : Catalogue) (relations : KeyedList (List Relation))
    (warnings : List Warning) : Prop where
  keys_eq : relations.keys = catalogue.keys
  accountsFor : ∀ name table, catalogue.get? name = some table →
    ∃ implied, relations.get? name = some implied ∧
      catalogue.AccountsFor table table.foreignKeys implied
  total : (catalogue.values.map fun table => table.foreignKeys.length).sum =
    (relations.values.map List.length).sum + warnings.countP Warning.isOutsideSchema +
      warnings.countP Warning.isNameTaken + (warnings.map Warning.compositeCount).sum
  composites : warnings.countP Warning.isComposite ≤ 1

variable {results : List (String × Implied)}

theorem balances_of_isResult (hkeys : catalogue.HasSinglePrimaryKeys)
    (h : List.Forall₂ catalogue.IsResult catalogue.entries results) :
    List.Forall₂ (fun entry result =>
      catalogue.Balances entry.2 entry.2.foreignKeys result.2) catalogue.entries results :=
  h.imp fun _ _ h => balances_of_impliedBy hkeys h.2

theorem keys_relationsByEntity (h : List.Forall₂ catalogue.IsResult catalogue.entries results) :
    (relationsByEntity results).keys = catalogue.keys :=
  KeyedList.keys_ofList_of_forall₂ ((relationsByEntity_forall₂ h).imp fun _ _ h => h.1)

theorem values_relationsByEntity (h : List.Forall₂ catalogue.IsResult catalogue.entries results) :
    (relationsByEntity results).values = results.map fun result => result.2.relations := by
  rw [KeyedList.values, relationsByEntity,
    KeyedList.entries_ofList_of_forall₂ ((relationsByEntity_forall₂ h).imp fun _ _ h => h.1),
    List.map_map]
  rfl

theorem sum_keyCount_allWarnings (results : List (String × Implied)) :
    ((allWarnings results).map Warning.keyCount).sum =
      (results.map fun result => (result.2.warnings.map Warning.keyCount).sum).sum +
        (results.map fun result => result.2.composites).sum := by
  rw [allWarnings, List.map_append, List.sum_append, List.map_flatMap, List.flatMap_def,
    List.sum_flatten, List.map_map]
  congr 1
  rw [compositeWarning]
  split
  · next hzero => rw [hzero]; rfl
  · exact List.sum_singleton

theorem sum_length_foreignKeys
    (hkeys : catalogue.HasSinglePrimaryKeys)
    (h : List.Forall₂ catalogue.IsResult catalogue.entries results) :
    (catalogue.values.map fun table => table.foreignKeys.length).sum =
      (results.map fun result => result.2.relations.length).sum +
        ((allWarnings results).map Warning.keyCount).sum := by
  have hmap : catalogue.values.map (fun table => table.foreignKeys.length) =
      results.map fun result => result.2.relations.length +
        (result.2.warnings.map Warning.keyCount).sum + result.2.composites := by
    rw [KeyedList.values, List.map_map, ← List.forall₂_eq_eq_eq, List.forall₂_map_left_iff,
      List.forall₂_map_right_iff]
    exact (balances_of_isResult hkeys h).imp fun _ _ hbalances => hbalances.length_eq
  rw [hmap, List.sum_map_add, List.sum_map_add, sum_keyCount_allWarnings, add_assoc]

/-- Only the last warning can be about keys of several columns. -/
theorem countP_isComposite_le (hkeys : catalogue.HasSinglePrimaryKeys)
    (h : List.Forall₂ catalogue.IsResult catalogue.entries results) :
    (allWarnings results).countP Warning.isComposite ≤ 1 := by
  have hnone :
      (results.flatMap fun result => result.2.warnings).countP Warning.isComposite = 0 := by
    refine List.countP_eq_zero.2 fun warning hwarning => Bool.not_eq_true _ ▸ ?_
    obtain ⟨result, hresult, hmem⟩ := List.mem_flatMap.1 hwarning
    obtain ⟨_, -, hbalances⟩ :=
      exists_result_of_mem (balances_of_isResult hkeys h).flip hresult
    exact hbalances.isComposite_eq_false hmem
  rw [allWarnings, List.countP_append, hnone, zero_add, compositeWarning]
  split
  · exact Nat.zero_le 1
  · exact List.countP_le_length

theorem losesNoKey_of_isResult (hkeys : catalogue.HasSinglePrimaryKeys)
    (h : List.Forall₂ catalogue.IsResult catalogue.entries results) :
    catalogue.LosesNoKey (relationsByEntity results) (allWarnings results) where
  keys_eq := keys_relationsByEntity h
  accountsFor name table hget := by
    obtain ⟨implied, hby, hrelations⟩ := implies_relationsByEntity h name table hget
    exact ⟨_, hrelations, accountsFor_of_impliedBy hkeys hby⟩
  total := by
    rw [sum_length_foreignKeys hkeys h, Warning.sum_keyCount, values_relationsByEntity h,
      List.map_map, ← add_assoc, ← add_assoc]
    rfl
  composites := countP_isComposite_le hkeys h

/-- **No foreign key is lost**: where every table has a primary key of a single column and no two
entities have one table, the foreign keys imply relations as soon as all of them refer to columns
that exist, and these and the warnings account for all keys. -/
theorem losesNoKey (hkeys : catalogue.HasSinglePrimaryKeys) (hinjective : catalogue.IsInjective) :
    ((∃ relations warnings, catalogue.impliedRelations = .ok (relations, warnings)) ↔
        catalogue.ResolvesAll) ∧
      ∀ relations warnings, catalogue.impliedRelations = .ok (relations, warnings) →
        catalogue.LosesNoKey relations warnings := by
  refine ⟨exists_impliedRelations_iff hkeys hinjective, fun relations warnings himplied => ?_⟩
  obtain ⟨results, hresults, rfl, rfl⟩ := exists_results_of_impliedRelations hkeys himplied
  exact losesNoKey_of_isResult hkeys hresults

end Catalogue

/-- Nodes with foreign keys of every kind: two that imply relations, one that comes again, one that
leads to no entity, and one of two columns. -/
def Forest.tangled : Catalogue where
  toKeyedList := .ofList
    [("Node", ⟨0, none, "nodes",
        [⟨"id", "id", true⟩, ⟨"parent_id", "parent_id", false⟩, ⟨"soil_id", "soil_id", false⟩,
         ⟨"keeper_code", "keeper_code", false⟩, ⟨"keeper_name", "keeper_name", false⟩],
        [⟨keyColumn "parent_id" "nodes.id", []⟩, ⟨keyColumn "soil_id" "soils.id", []⟩,
         ⟨keyColumn "keeper_code" "keepers.code", [keyColumn "keeper_name" "keepers.name"]⟩,
         ⟨keyColumn "parent_id" "nodes.id", []⟩, ⟨keyColumn "keeper_code" "keepers.code", []⟩]⟩),
     ("Keeper", ⟨0, none, "keepers",
        [⟨"id", "id", true⟩, ⟨"code", "code", false⟩, ⟨"name", "name", false⟩], []⟩)]
  unmapped := [⟨0, none, "soils", [⟨"id", "id", true⟩], []⟩]

theorem Catalogue.losesNoKey_tangled :
    Forest.tangled.HasSinglePrimaryKeys ∧ Forest.tangled.IsInjective ∧
      Forest.tangled.ResolvesAll ∧
      ∃ relations warnings, Forest.tangled.impliedRelations = .ok (relations, warnings) ∧
        relations.values.map List.length = [2, 0] ∧ warnings.map Warning.keyCount = [1, 1, 1] ∧
        Forest.tangled.LosesNoKey relations warnings := by
  have hkeys := checkPrimaryKeys_eq_ok_iff.1 (by decide +kernel :
    Forest.tangled.checkPrimaryKeys = .ok ())
  have hinjective := checkDistinct_eq_ok_iff.1 (by decide +kernel :
    Forest.tangled.checkDistinct = .ok ())
  have hresolves := checkReferences_eq_ok_iff.1 (by decide +kernel :
    Forest.tangled.checkReferences = .ok ())
  have hcounts : Forest.tangled.impliedRelations.map (fun implied =>
      (implied.1.values.map List.length, implied.2.map Warning.keyCount)) =
        .ok ([2, 0], [1, 1, 1]) := by decide +kernel
  obtain ⟨hreturns, hloses⟩ := losesNoKey hkeys hinjective
  obtain ⟨relations, warnings, himplied⟩ := hreturns.2 hresolves
  rw [himplied] at hcounts
  obtain ⟨hrelations, hwarnings⟩ := Prod.ext_iff.1 (Except.ok.inj hcounts)
  exact ⟨hkeys, hinjective, hresolves, relations, warnings, himplied, hrelations, hwarnings,
    hloses relations warnings himplied⟩

end RequestPlan
