import RequestPlan.Proofs.ClosedSchema
import RequestPlan.Proofs.EquivalentRequests

/-!
# Descriptions that are alike

A plan can start from a name or from a description of an entity, and the description need not be the
one that the schema has: its relations may be declared in another order. No stage of a compilation
notices, for none goes through the relations of an entity. All of them look names up.

* `Entity.Alike`, `Entity.same_iff_alike`: descriptions that answer every look-up alike;
* `Member.Alike`, `Closure.Alike`, `Walk.Alike`, `JoinGraph.Alike`: what comes from roots that are
  alike, with a lemma for each stage that reads it;
* `QueryPlan.compile_congr_root`: plans for roots that are alike;
* `QueryPlan.TakesDescription`, `QueryPlan.takesDescription`: a description stands for its name, or
  for nothing.
-/

namespace RequestPlan

/-! ## Descriptions -/

/-- Two descriptions that answer every look-up alike. -/
structure Entity.Alike (d e : Entity) : Prop where
  name : d.name = e.name
  tableName : d.tableName = e.tableName
  primaryKey : d.primaryKey = e.primaryKey
  tag : d.tag = e.tag
  isSearchable : ∀ field, d.isSearchable field = e.isSearchable field
  relation? : ∀ name, d.relation? name = e.relation? name

/-- Descriptions are alike if they differ at most in the order of their relations. -/
theorem Entity.same_iff_alike {d e : Entity} : Same d e ↔ Alike d e := by
  constructor
  · intro h
    exact
      { name := h.name
        tableName := h.tableName
        primaryKey := h.primaryKey
        tag := h.tag
        isSearchable := fun field => by rw [Entity.isSearchable, h.searchable, Entity.isSearchable]
        relation? := KeyedList.sameEntries_iff.1 h.relations }
  · intro h
    exact
      { name := h.name
        tableName := h.tableName
        primaryKey := h.primaryKey
        searchable := NameSet.ext fun field => by
          have hfield := h.isSearchable field
          rwa [Entity.isSearchable, Entity.isSearchable, decide_eq_decide] at hfield
        relations := KeyedList.sameEntries_iff.2 h.relation?
        tag := h.tag }

/-! ## Members and closures -/

/-- Two members under one alias and one path, with descriptions that are alike. -/
structure Member.Alike (m n : Member) : Prop where
  tableAlias : m.tableAlias = n.tableAlias
  entity : m.entity.Alike n.entity
  path : m.path = n.path

theorem Entity.Alike.refl (e : Entity) : e.Alike e :=
  ⟨rfl, rfl, rfl, rfl, fun _ => rfl, fun _ => rfl⟩

theorem Member.Alike.refl (m : Member) : m.Alike m :=
  ⟨rfl, .refl m.entity, rfl⟩

/-- The alias and the field of an owner. -/
def FieldOwner.column (owner : FieldOwner) : String × String :=
  (owner.member.tableAlias, owner.field)

/-- Two closures that differ at most in their roots, which are alike. -/
structure Closure.Alike (c d : Closure) : Prop where
  root : c.root.Alike d.root
  joined : c.joined = d.joined

namespace Closure

/-- The root does not stand under a path with a last name. -/
theorem member?_concat (closure : Closure) (path : Path) (name : String) :
    closure.member? (path ++ [name]) =
      closure.joined.find? fun member => member.path = path ++ [name] := by
  rw [member?, members, List.find?_cons_of_neg (by simp [closure.root_path])]

namespace Alike

variable {c d : Closure} {m n : Member}

theorem related?_eq (h : c.Alike d) (hm : m.Alike n) (name : String) :
    c.related? m name = d.related? n name := by
  rw [related?, related?, hm.entity.relation? name, hm.path, member?_concat, member?_concat,
    h.joined]

theorem height_eq (h : c.Alike d) : c.height = d.height := by
  simp only [height, members, List.map_cons, c.root_path, d.root_path, h.joined]

/-- From one member the search finds the same owner in both closures. -/
theorem resolve?_eq (h : c.Alike d) (member : Member) (field : String) :
    c.resolve? member field = d.resolve? member field := by
  induction member using c.descent_induction generalizing field with
  | step member ih =>
    have hcalls : (fun descent : String × String =>
        (c.related? member descent.1).bind fun next => c.resolve? next descent.2) =
          fun descent => (d.related? member descent.1).bind fun next =>
            d.resolve? next descent.2 := by
      funext descent
      rw [← h.related?_eq (.refl member)]
      exact Option.bind_congr fun next hr => ih descent.1 next hr descent.2
    rw [Closure.resolve?_eq, Closure.resolve?_eq, hcalls]

/-- From the roots it finds owners of one column. -/
theorem column_resolve?_root (h : c.Alike d) (field : String) :
    (c.resolve? c.root field).map FieldOwner.column =
      (d.resolve? d.root field).map FieldOwner.column := by
  rw [Closure.resolve?_eq, Closure.resolve?_eq, h.root.entity.isSearchable field]
  split
  · rw [Option.map_some, Option.map_some, FieldOwner.column, FieldOwner.column, h.root.tableAlias]
  · simp only [h.related?_eq h.root, h.resolve?_eq]

theorem column_toList_resolve?_root (h : c.Alike d) (field : String) :
    (c.resolve? c.root field).toList.map FieldOwner.column =
      (d.resolve? d.root field).toList.map FieldOwner.column := by
  rw [← Option.toList_map, ← Option.toList_map, h.column_resolve?_root]

theorem column_owners (h : c.Alike d) (field : String) :
    (c.owners field).map FieldOwner.column = (d.owners field).map FieldOwner.column := by
  simp only [owners, members, h.joined, List.filter_cons, h.root.entity.isSearchable field]
  split
  · simp only [List.map_cons, FieldOwner.column, h.root.tableAlias]
  · rfl

theorem isActive_eq (h : c.Alike d) : c.isActive = d.isActive := by
  rw [isActive, isActive, h.joined]

end Alike

end Closure

/-! ## What reads a closure -/

namespace Filter

variable {v : Vocabulary} {c d : Closure} {owners others : List FieldOwner}

theorem ofOwners_congr (h : owners.map FieldOwner.column = others.map FieldOwner.column)
    (value : RawValue) (connective : Connective) :
    ofOwners v owners value connective = ofOwners v others value connective := by
  have hcolumns : ∀ owners : List FieldOwner, ofOwners v owners value connective =
      (owners.map FieldOwner.column).mapM fun column =>
        Filter.ofRaw v column.1 column.2 value connective := by
    intro owners
    rw [List.mapM_map]
    rfl
  rw [hcolumns, hcolumns, h]

theorem column_generalOwners (h : c.Alike d) (key : String) :
    (generalOwners c key).map FieldOwner.column = (generalOwners d key).map FieldOwner.column := by
  have howners := h.column_owners key
  unfold generalOwners
  cases hc : c.owners key with
  | nil =>
    have hd : d.owners key = [] := by simpa [hc] using howners.symm
    rw [hd]
    exact h.column_toList_resolve?_root key
  | cons first rest =>
    cases hd : d.owners key with
    | nil => simp [hc, hd] at howners
    | cons first' rest' => rwa [hc, hd] at howners

theorem ofNamespaced_congr (h : c.Alike d) (key : String) (value : RawValue) :
    ofNamespaced v c key value = ofNamespaced v d key value := by
  rw [ofNamespaced, ofNamespaced, h.root.entity.tag]
  refine ite_congr rfl (fun _ => rfl) fun _ => bind_congr_ok fun field _ => ?_
  exact ofOwners_congr (h.column_toList_resolve?_root field) _ _

theorem ofGeneral_congr (h : c.Alike d) (key : String) (value : RawValue) :
    ofGeneral v c key value = ofGeneral v d key value := by
  rw [ofGeneral, ofGeneral, generalConnective, generalConnective, h.isActive_eq]
  exact ite_congr rfl (fun _ => rfl) fun _ => ofOwners_congr (column_generalOwners h key) _ _

/-- The filters of a request do not depend on which of the closures it is compiled for. -/
theorem ofRequest_congr (h : c.Alike d) (request : Request) :
    ofRequest v c request = ofRequest v d request := by
  simp only [ofRequest, allNamespaced, allGeneral, ofNamespaced_congr h, ofGeneral_congr h]

end Filter

namespace RowOrder

variable {v : Vocabulary} {c d : Closure}

theorem clausesOf_congr_closure (h : c.Alike d) (direction : OrderDirection) (fields : String) :
    clausesOf c direction fields = clausesOf d direction fields := by
  have hclause : ∀ closure : Closure, ∀ name : String,
      ((closure.resolve? closure.root name).map fun owner =>
        (⟨owner.member.tableAlias, owner.field, direction⟩ : OrderClause)) =
          ((closure.resolve? closure.root name).map FieldOwner.column).map fun column =>
            ⟨column.1, column.2, direction⟩ := by
    intro closure name
    rw [Option.map_map]
    rfl
  simp only [clausesOf, hclause, h.column_resolve?_root]

theorem ofControl_congr_closure (h : c.Alike d) (control : KeyedList RawValue) :
    ofControl v c control = ofControl v d control := by
  simp only [ofControl, clausesOf_congr_closure h]

end RowOrder

/-- The projections of roots that are alike. -/
theorem projectionsOf_congr {m n : Member} (h : m.Alike n) : projectionsOf m = projectionsOf n := by
  have hsearchable := (Entity.same_iff_alike.2 h.entity).searchable
  have hlabelled : Projection.labelled m = Projection.labelled n := by
    funext field
    rw [Projection.labelled, Projection.labelled, h.tableAlias]
  rw [projectionsOf, projectionsOf, hsearchable, hlabelled, h.tableAlias]

/-! ## Join graphs -/

/-- Two walks that differ at most in their roots, which are alike. -/
structure Walk.Alike (w x : Walk) : Prop where
  root : w.root.Alike x.root
  steps : w.steps = x.steps
  pool : w.pool = x.pool

/-- A walk and the member that it has come to, and another such pair. -/
structure Walk.ArriveAlike (p q : Walk × Member) : Prop where
  walk : p.1.Alike q.1
  member : p.2.Alike q.2

namespace Walk.Alike

variable {w x : Walk} {m n : Member} {schema : Schema}

theorem closure (h : w.Alike x) : w.closure.Alike x.closure where
  root := h.root
  joined := by rw [Walk.closure, Walk.closure, h.steps]

theorem attach (h : w.Alike x) (hm : m.Alike n) (relation : Relation) :
    Parallel ArriveAlike (w.attach schema m relation) (x.attach schema n relation) := by
  refine .of_bind fun target _ => ?_
  -- The alias comes from the pool and the keys come from the source, which are read alike.
  rw [h.pool]
  obtain ⟨tableAlias, pool⟩ := x.pool.allocate target.tableName
  have hjoin : Join.along m relation target tableAlias =
      Join.along n relation target tableAlias := by
    rw [Join.along, Join.along, hm.tableAlias, hm.entity.primaryKey]
  dsimp only
  rw [hjoin]
  refine .of_bind fun join _ => .ok ⟨⟨h.root, ?_, rfl⟩, ⟨rfl, .refl _, ?_⟩⟩
  · rw [h.steps, hm.path]
  · rw [hm.path]

theorem advance (h : w.Alike x) (hm : m.Alike n) (relation : Relation) :
    Parallel ArriveAlike (w.advance schema m relation) (x.advance schema n relation) := by
  rw [Walk.advance, Walk.advance, Closure.member?_concat, Closure.member?_concat, hm.path,
    h.closure.joined]
  split
  · exact .ok ⟨h, .refl _⟩
  · exact h.attach hm relation

theorem follow (h : w.Alike x) (hm : m.Alike n) (names : List String) :
    Parallel ArriveAlike (w.follow schema m names) (x.follow schema n names) := by
  -- Only the first member can be the root; from there on the two walks come to the same members.
  induction names generalizing w x m n with
  | nil => exact .ok ⟨h, hm⟩
  | cons name names ih =>
    rw [Walk.follow, Walk.follow, hm.entity.relation? name]
    split
    · exact .ok ⟨h, hm⟩
    · next relation _ => exact (h.advance hm relation).bind fun p q hpq => ih hpq.walk hpq.member

theorem followAll (h : w.Alike x) (chains : List (List String)) :
    Parallel (fun p q => p.1.Alike q.1 ∧ p.2 = q.2) (w.followAll schema chains)
      (x.followAll schema chains) := by
  induction chains generalizing w x with
  | nil => exact .ok ⟨h, rfl⟩
  | cons chain chains ih =>
    refine (h.follow h.root chain).bind fun p q hpq => (ih hpq.walk).bind ?_
    rintro ⟨walk, reached⟩ ⟨walk', reached'⟩ ⟨hwalk, hreached⟩
    obtain rfl : reached = reached' := hreached
    rw [hpq.member.path]
    exact .ok ⟨hwalk, rfl⟩

end Walk.Alike

namespace EagerLoad

/-- The root continues no path. -/
theorem levels_cons_of_path_nil {member : Member} (h : member.path = []) (members : List Member)
    (depth : ℕ) (parent : Path) :
    levels (member :: members) depth parent = levels members depth parent := by
  induction depth generalizing parent with
  | zero => rfl
  | succ depth ih =>
    have hnone : Path.step? parent member.path = none := by rw [h]; rfl
    simp only [levels, ih, List.filterMap_cons, hnone, Option.map_none]

theorem ofClosure_congr {c d : Closure} (h : c.Alike d) : ofClosure c = ofClosure d := by
  rw [ofClosure, ofClosure, Closure.members, Closure.members, levels_cons_of_path_nil c.root_path,
    levels_cons_of_path_nil d.root_path, h.joined, h.height_eq]

end EagerLoad

/-- Two join graphs that differ at most in the roots of their closures, which are alike. -/
structure JoinGraph.Alike (g k : JoinGraph) : Prop where
  closure : g.closure.Alike k.closure
  joins : g.joins = k.joins
  eagerLoads : g.eagerLoads = k.eagerLoads
  eagerLoadTree : g.eagerLoadTree = k.eagerLoadTree

theorem JoinGraph.Alike.of_walk {w x : Walk} (h : w.Alike x) (reached : List Path) :
    (ofWalk w reached).Alike (ofWalk x reached) where
  closure := h.closure
  joins := by rw [ofWalk, ofWalk, h.steps]
  eagerLoads := rfl
  eagerLoadTree := EagerLoad.ofClosure_congr h.closure

theorem Walk.alike_start {d e : Entity} (h : d.Alike e) : (start d).Alike (start e) where
  root := ⟨h.tableName, h, rfl⟩
  steps := rfl
  pool := by rw [start, start, h.tableName]

theorem JoinGraph.build_congr_root {d e : Entity} (h : d.Alike e) (schema : Schema)
    (requested : Option String) :
    Parallel JoinGraph.Alike (build schema d requested) (build schema e requested) := by
  refine ((Walk.alike_start h).followAll _).bind ?_
  rintro ⟨walk, reached⟩ ⟨walk', reached'⟩ ⟨hwalk, hreached⟩
  obtain rfl : reached = reached' := hreached
  exact .ok (.of_walk hwalk reached)

/-! ## Plans -/

namespace QueryPlan

variable {schema : Schema} {root other : Candidate} {d e : Entity}

/-- Plans for roots that are alike are the same, and so are failures to make one. -/
theorem compile_congr_root (hroot : schema.root root = .ok d) (hother : schema.root other = .ok e)
    (h : d.Alike e) (parameters : KeyedList RawValue) (v : Vocabulary) :
    compile schema root parameters v = compile schema other parameters v := by
  rw [compile_eq_bind, compile_eq_bind, hroot, hother, ok_bind, ok_bind, requestedChains,
    requestedChains, h.name, h.tag]
  refine bind_congr_ok fun _ _ => (JoinGraph.build_congr_root h schema _).bind_eq fun g k hgk => ?_
  rw [Filter.ofRequest_congr hgk.closure, RowOrder.ofControl_congr_closure hgk.closure,
    projectionsOf_congr hgk.closure.root, hgk.closure.root.tableAlias, hgk.joins, hgk.eagerLoads,
    hgk.eagerLoadTree]

/-- What comes of a description where the name of an entity would do. -/
structure TakesDescription (schema : Schema) (description : Entity)
    (parameters : KeyedList RawValue) (v : Vocabulary) : Prop where
  /-- A description that is like the one under its name stands for that name. -/
  alike : ∀ registered, schema.entities.get? description.name = some registered →
    description.Alike registered →
      compile schema (.entity description) parameters v =
        compile schema (.other (.text description.name)) parameters v
  /-- Any other description stands for no entity. -/
  unlike : (∀ registered, schema.entities.get? description.name = some registered →
    ¬ description.Alike registered) →
      ∃ e, compile schema (.entity description) parameters v = .error e ∧ e.kind = .invalidEntity

/-- **A description stands for the name of its entity, or for nothing.** -/
theorem takesDescription (schema : Schema) (description : Entity)
    (parameters : KeyedList RawValue) (v : Vocabulary) :
    TakesDescription schema description parameters v where
  alike registered hget halike := by
    have hroot : schema.root (.entity description) = .ok description := by
      rw [Schema.root, hget]
      exact if_pos (Entity.same_iff_alike.2 halike)
    have hname : schema.root (.other (.text description.name)) = .ok registered :=
      Schema.entity_eq_ok_iff.2 hget
    exact compile_congr_root hroot hname halike parameters v
  unlike hunlike := by
    have hnot : ¬ ∃ entity, schema.root (.entity description) = .ok entity := by
      rw [Schema.exists_root_iff]
      rintro ⟨registered, hget, hsame⟩
      exact hunlike registered hget (Entity.same_iff_alike.1 hsame)
    obtain ⟨e, he⟩ := (exists_ok_or_error (schema.root (.entity description))).resolve_left hnot
    refine ⟨e, ?_, Schema.kind_of_root_eq_error he⟩
    rw [compile_eq_bind, he, error_bind]

end QueryPlan

/-! ## Nodes described another way -/

/-- Nodes with their relations in another order, and with one that a later one of its name takes the
place of. -/
def Forest.redescribed : Entity where
  name := "Node"
  tableName := "nodes"
  primaryKey := "id"
  searchable := .ofList ["kind", "name", "kind"]
  relations := Relation.byName
    [⟨"keeper", .toMany, "node_id", "Node", none⟩,
     ⟨"children", .toMany, "parent_id", "Node", none⟩,
     ⟨"keeper", .toOne, "keeper_code", "Keeper", some "code"⟩,
     ⟨"parent", .toOne, "parent_id", "Node", none⟩]
  tag := "node"
  relations_named := by decide +kernel

/-- Keepers under the name of nodes. -/
def Forest.renamed : Entity := { keeper with name := "Node" }

theorem QueryPlan.takesDescription_forest :
    Forest.redescribed ≠ Forest.node ∧
      compile Forest.schema (.entity Forest.redescribed) Forest.parameters .conventional =
        .ok Forest.plan ∧
      ∃ e, compile Forest.schema (.entity Forest.renamed) Forest.parameters .conventional =
        .error e ∧ e.kind = .invalidEntity := by
  have hget : Forest.schema.entities.get? "Node" = some Forest.node := by decide +kernel
  have hsame : Forest.redescribed.Same Forest.node := by decide +kernel
  have htable : Forest.renamed.tableName ≠ Forest.node.tableName := by decide +kernel
  refine ⟨by decide +kernel, ?_, ?_⟩
  · have htakes := takesDescription Forest.schema Forest.redescribed Forest.parameters .conventional
    rw [htakes.alike Forest.node hget (Entity.same_iff_alike.1 hsame)]
    exact Forest.compile_parameters
  · have htakes := takesDescription Forest.schema Forest.renamed Forest.parameters .conventional
    refine htakes.unlike fun registered hregistered halike => htable ?_
    obtain rfl : Forest.node = registered := Option.some.inj (hget.symm.trans hregistered)
    exact halike.tableName

end RequestPlan
