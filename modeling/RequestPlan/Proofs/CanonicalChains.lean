import RequestPlan.Proofs.GraphExtension

/-!
# Eager loads as a list of chains

The eager loads of a graph, written as a list of chains, ask for that very graph. They are the
chains that were asked for, without what does not count: tails that led nowhere, blanks, and chains
that came up before.

* `Walk.Admits.eq_of_path_eq`, `Walk.Reaches.eq_of_paths_eq`: the paths of a walk determine its
  joins and aliases;
* `JoinGraph.eq_of_build`: the paths asked for and the eager loads determine the graph;
* `JoinGraph.chainsOf_intercalate_chain`: chains are read back from the way they are written;
* `JoinGraph.requestedPaths_eagerLoads`: the eager loads ask for the paths of their graph;
* `JoinGraph.build_intercalate_eagerLoads`: they ask for the graph.
-/

namespace RequestPlan

/-! ## The paths determine the walk -/

variable {schema : Schema} {source : Member} {relation : Relation} {target root : Entity}
  {tableAlias : String}

theorem Join.IsAlong.eq {join join' : Join} (h : join.IsAlong source relation target tableAlias)
    (h' : join'.IsAlong source relation target tableAlias) : join = join' := by
  obtain ⟨direction, sourceAlias, sourceKey, targetTable, targetAlias, targetKey⟩ := join
  obtain ⟨direction', sourceAlias', sourceKey', targetTable', targetAlias', targetKey'⟩ := join'
  obtain rfl : sourceAlias = sourceAlias' := h.sourceAlias.trans h'.sourceAlias.symm
  obtain rfl : targetAlias = targetAlias' := h.targetAlias.trans h'.targetAlias.symm
  obtain rfl : targetTable = targetTable' := h.targetTable.trans h'.targetTable.symm
  cases hkind : relation.kind with
  | toOne =>
    obtain ⟨rfl, rfl, rfl⟩ := h.toOne hkind
    obtain ⟨rfl, rfl, rfl⟩ := h'.toOne hkind
    rfl
  | toMany =>
    obtain ⟨rfl, rfl, rfl⟩ := h.toMany hkind
    obtain ⟨rfl, rfl, rfl⟩ := h'.toMany hkind
    rfl
  | unknown kind => exact absurd h.known (by simp [hkind, RelationKind.IsKnown])

theorem Step.IsAlong.eq {step step' : Step} (h : step.IsAlong schema source relation)
    (h' : step'.IsAlong schema source relation)
    (halias : step.member.entity = step'.member.entity →
      step.member.tableAlias = step'.member.tableAlias) : step = step' := by
  obtain ⟨⟨tableAlias, entity, path⟩, join⟩ := step
  obtain ⟨⟨tableAlias', entity', path'⟩, join'⟩ := step'
  obtain rfl : entity = entity' := by
    simpa using h.registered.symm.trans h'.registered
  obtain rfl : tableAlias = tableAlias' := halias rfl
  obtain rfl : path = path' := h.path.trans h'.path.symm
  obtain rfl : join = join' := h.join.eq h'.join
  rfl

namespace Walk

variable {walk walk' walk'' : Walk} {step step' : Step}

/-- A walk can grow to a path in one way only. -/
theorem Admits.eq_of_path_eq (hw : walk.Sound schema root) (h : walk.Admits schema step)
    (h' : walk.Admits schema step') (hpath : step.member.path = step'.member.path) :
    step = step' := by
  obtain ⟨source, hsource, relation, halong⟩ := h.along
  obtain ⟨source', hsource', relation', halong'⟩ := h'.along
  rw [halong.path, halong'.path] at hpath
  obtain ⟨hfront, hname⟩ := List.append_inj' hpath rfl
  obtain rfl : source = source' := hw.eq_of_path_eq hsource hsource' hfront
  obtain hname : relation.name = relation'.name := by simpa using hname
  obtain rfl : relation = relation' := by
    simpa [hname, halong'.declared] using halong.declared.symm
  refine halong.eq halong' fun hentity => ?_
  rw [h.tableAlias, h'.tableAlias, hentity]

@[simp] theorem paths_push (walk : Walk) (step : Step) :
    (walk.push step).paths = walk.paths ++ [step.member.path] := by
  simp [paths]

theorem Reaches.paths_isPrefix (h : walk.Reaches schema walk') : walk.paths <+: walk'.paths := by
  induction h with
  | refl => exact List.prefix_refl _
  | push _ _ ih =>
    rw [paths_push]
    exact ih.trans (List.prefix_append _ _)

/-- A walk that has reached further has been to more paths. -/
theorem Reaches.paths_push_ne (h : walk.Reaches schema walk') (step : Step) :
    (walk'.push step).paths ≠ walk.paths := by
  intro heq
  have hle := h.paths_isPrefix.length_le
  have hlength := congrArg List.length heq
  rw [paths_push, List.length_append, List.length_singleton] at hlength
  omega

/-- Where a walk has grown to determines what it has become: joins, aliases and all. -/
theorem Reaches.eq_of_paths_eq (hw : walk.Sound schema root) (h : walk.Reaches schema walk')
    (h' : walk.Reaches schema walk'') (hpaths : walk'.paths = walk''.paths) : walk' = walk'' := by
  induction h generalizing walk'' with
  | refl =>
    cases h' with
    | refl => rfl
    | push h' _ => exact absurd hpaths.symm (h'.paths_push_ne _)
  | push h ha ih =>
    cases h' with
    | refl => exact absurd hpaths (h.paths_push_ne _)
    | push h' ha' =>
      rw [paths_push, paths_push] at hpaths
      obtain ⟨hfront, hlast⟩ := List.append_inj' hpaths rfl
      obtain rfl := ih h' hfront
      obtain rfl := ha.eq_of_path_eq (hw.of_reaches h) ha' (by simpa using hlast)
      rfl

end Walk

namespace JoinGraph

variable {requested requested' : Option String} {graph graph' : JoinGraph}

/-- A graph is determined by the paths that were asked for and by its eager loads. -/
theorem eq_of_build (h : build schema root requested = .ok graph)
    (h' : build schema root requested' = .ok graph')
    (hpaths : requestedPaths schema root requested = requestedPaths schema root requested')
    (hloads : graph.eagerLoads = graph'.eagerLoads) : graph = graph' := by
  rw [← paths_of_build h, ← paths_of_build h'] at hpaths
  obtain ⟨walk, reached, hall, rfl⟩ := build_eq_ok_iff.1 h
  obtain ⟨walk', reached', hall', rfl⟩ := build_eq_ok_iff.1 h'
  have hstart := Walk.sound_start schema root
  obtain rfl : walk = walk' := by
    refine (Walk.followAll_spec hstart hall).1.eq_of_paths_eq hstart
      (Walk.followAll_spec hstart hall').1 ?_
    simpa [ofWalk, Walk.closure, Walk.paths, Function.comp_def] using hpaths
  simpa [ofWalk] using hloads

/-! ## Reading eager loads as chains -/

theorem map_eq_self {α : Type} {items : List α} {f : α → α} (h : ∀ item ∈ items, f item = item) :
    items.map f = items := by
  calc items.map f
    _ = items.map id := List.map_congr_left h
    _ = items := List.map_id items

/-- An eager load is the text of a resolved chain, as far as that chain leads. -/
theorem exists_resolved_of_mem_eagerLoads (h : build schema root requested = .ok graph)
    {load : String} (hload : load ∈ graph.eagerLoads) :
    Text.chainNames load ∈ resolvedChains schema root requested ∧
      Text.chainNames load ≠ [] ∧ Text.chain (Text.chainNames load) = load := by
  rw [eagerLoads_of_build h, List.mem_eraseDups] at hload
  obtain ⟨path, hpath, rfl⟩ := List.mem_map.1 hload
  obtain ⟨hresolved, hne⟩ := List.mem_filter.1 hpath
  have hne : path ≠ [] := by simpa using hne
  rw [Text.chainNames_chain hne (isChainName_of_mem_resolvedChains hresolved)]
  exact ⟨hresolved, hne, rfl⟩

theorem resolved_of_mem_resolvedChains {path : Path}
    (h : path ∈ resolvedChains schema root requested) : schema.resolved root path = path := by
  obtain ⟨chain, -, rfl⟩ := List.mem_map.1 h
  exact schema.resolved_resolved root chain

/-- The only chain without a text is that of a relation without a name. -/
theorem isSome_relation?_of_empty_mem_eagerLoads (h : build schema root requested = .ok graph)
    (hempty : "" ∈ graph.eagerLoads) : (root.relation? "").isSome := by
  obtain ⟨hresolved, -, -⟩ := exists_resolved_of_mem_eagerLoads h hempty
  have hnames : Text.chainNames "" = [""] := by decide
  rw [hnames] at hresolved
  have hfixed := resolved_of_mem_resolvedChains hresolved
  cases hrelation : root.relation? "" with
  | none =>
    have hnone : schema.step? root "" = none := Schema.step?_eq_none_of_relation? hrelation
    rw [Schema.resolved_cons_of_step?_eq_none hnone] at hfixed
    cases hfixed
  | some relation => rfl

/-- Chains are read back from the way they are written, unless one of them has no text. -/
theorem chainsOf_intercalate_chain {paths : List Path}
    (h : ∀ path ∈ paths, path ≠ [] ∧ Text.chain path ≠ "" ∧ ∀ name ∈ path, Text.IsChainName name) :
    chainsOf (",".intercalate (paths.map Text.chain)) = paths := by
  have hentries : Text.entries (",".intercalate (paths.map Text.chain)) = paths.map Text.chain := by
    refine Text.entries_intercalate fun part hpart => ?_
    obtain ⟨path, hpath, rfl⟩ := List.mem_map.1 hpart
    obtain ⟨-, hne, hnames⟩ := h path hpath
    exact Text.isEntry_chain hnames hne
  rw [chainsOf, hentries, List.map_map]
  apply map_eq_self
  intro path hpath
  obtain ⟨hne, -, hnames⟩ := h path hpath
  exact Text.chainNames_chain hne hnames

/-- The texts of the chains that eager loads are read as. -/
theorem map_chain_eagerLoads (h : build schema root requested = .ok graph) :
    (graph.eagerLoads.map Text.chainNames).map Text.chain = graph.eagerLoads := by
  rw [List.map_map]
  apply map_eq_self
  intro load hload
  exact (exists_resolved_of_mem_eagerLoads h hload).2.2

/-- The eager loads of a graph are read back as the chains whose texts they are. -/
theorem chainsOf_intercalate_eagerLoads (h : build schema root requested = .ok graph)
    (hne : "" ∉ graph.eagerLoads) :
    chainsOf (",".intercalate graph.eagerLoads) = graph.eagerLoads.map Text.chainNames := by
  have hread : ∀ path ∈ graph.eagerLoads.map Text.chainNames,
      path ≠ [] ∧ Text.chain path ≠ "" ∧ ∀ name ∈ path, Text.IsChainName name := by
    intro path hpath
    obtain ⟨load, hload, rfl⟩ := List.mem_map.1 hpath
    obtain ⟨hresolved, hnil, hchain⟩ := exists_resolved_of_mem_eagerLoads h hload
    refine ⟨hnil, ?_, isChainName_of_mem_resolvedChains hresolved⟩
    rw [hchain]
    intro heq
    exact hne (heq ▸ hload)
  rw [← chainsOf_intercalate_chain hread, map_chain_eagerLoads h]

/-- Each eager load leads as far as its text says. -/
theorem resolvedChains_eagerLoads (h : build schema root requested = .ok graph)
    (hne : "" ∉ graph.eagerLoads) :
    resolvedChains schema root (some (",".intercalate graph.eagerLoads)) =
      graph.eagerLoads.map Text.chainNames := by
  rw [resolvedChains, Option.getD_some, chainsOf_intercalate_eagerLoads h hne, List.map_map]
  refine List.map_congr_left fun load hload => ?_
  exact resolved_of_mem_resolvedChains (exists_resolved_of_mem_eagerLoads h hload).1

/-- Nothing lies along a chain that leads nowhere. -/
theorem flatMap_prefixes_filter (chains : List Path) :
    (chains.filter (· ≠ [])).flatMap Path.prefixes = chains.flatMap Path.prefixes := by
  induction chains with
  | nil => rfl
  | cons chain chains ih =>
    by_cases hnil : chain = []
    · simpa [hnil] using ih
    · simpa [hnil] using ih

/-- The eager loads ask for the paths that were asked for, in the same order. -/
theorem requestedPaths_eagerLoads (h : build schema root requested = .ok graph)
    (hne : "" ∉ graph.eagerLoads) :
    requestedPaths schema root (some (",".intercalate graph.eagerLoads)) =
      requestedPaths schema root requested := by
  have hread : ∀ path ∈ (resolvedChains schema root requested).filter (· ≠ []),
      Path.prefixes (Text.chainNames (Text.chain path)) = Path.prefixes path := by
    intro path hpath
    obtain ⟨hresolved, hpath⟩ := List.mem_filter.1 hpath
    rw [Text.chainNames_chain (by simpa using hpath) (isChainName_of_mem_resolvedChains hresolved)]
  calc requestedPaths schema root (some (",".intercalate graph.eagerLoads))
    _ = (graph.eagerLoads.flatMap fun load => Path.prefixes (Text.chainNames load)).eraseDups := by
      rw [requestedPaths, resolvedChains_eagerLoads h hne, List.flatMap_map]
    _ = ((((resolvedChains schema root requested).filter (· ≠ [])).map Text.chain).flatMap
          fun load => Path.prefixes (Text.chainNames load)).eraseDups := by
      rw [eagerLoads_of_build h, eraseDups_flatMap_eraseDups]
    _ = (((resolvedChains schema root requested).filter (· ≠ [])).flatMap
          Path.prefixes).eraseDups := by
      rw [List.flatMap_map, List.flatMap_congr hread]
    _ = requestedPaths schema root requested := by
      rw [flatMap_prefixes_filter, requestedPaths]

/-- The graph of the eager loads has the same eager loads. -/
theorem eagerLoads_of_build_eagerLoads (h : build schema root requested = .ok graph)
    (hne : "" ∉ graph.eagerLoads)
    (h' : build schema root (some (",".intercalate graph.eagerLoads)) = .ok graph') :
    graph'.eagerLoads = graph.eagerLoads := by
  have hkept : (graph.eagerLoads.map Text.chainNames).filter (· ≠ []) =
      graph.eagerLoads.map Text.chainNames := by
    refine List.filter_eq_self.2 fun path hpath => ?_
    obtain ⟨load, hload, rfl⟩ := List.mem_map.1 hpath
    simpa using (exists_resolved_of_mem_eagerLoads h hload).2.1
  have hnodup : graph.eagerLoads.Nodup := by
    rw [eagerLoads_of_build h]
    exact nodup_eraseDups _
  rw [eagerLoads_of_build h', resolvedChains_eagerLoads h hne, hkept,
    map_chain_eagerLoads h, eraseDups_of_nodup hnodup]

/-- A graph can be built from its eager loads. -/
theorem exists_build_eagerLoads (h : build schema root requested = .ok graph)
    (hne : "" ∉ graph.eagerLoads) :
    ∃ graph', build schema root (some (",".intercalate graph.eagerLoads)) = .ok graph' := by
  refine exists_build_iff.2 fun chain hchain => ?_
  rw [Option.getD_some, chainsOf_intercalate_eagerLoads h hne] at hchain
  obtain ⟨load, hload, rfl⟩ := List.mem_map.1 hchain
  obtain ⟨asked, hasked, heq⟩ := List.mem_map.1 (exists_resolved_of_mem_eagerLoads h hload).1
  rw [← heq]
  exact (exists_build_iff.1 ⟨graph, h⟩ asked hasked).of_isPrefix
    (schema.resolved_isPrefix root asked)

/-- **The eager loads are a canonical form of the chains that were asked for.** Written as a list of
chains they ask for the same graph, unless one of them is empty; only a relation without a name
makes an empty one. -/
theorem build_intercalate_eagerLoads (h : build schema root requested = .ok graph) :
    ("" ∈ graph.eagerLoads → (root.relation? "").isSome) ∧
      ("" ∉ graph.eagerLoads →
        build schema root (some (",".intercalate graph.eagerLoads)) = .ok graph) := by
  refine ⟨isSome_relation?_of_empty_mem_eagerLoads h, fun hne => ?_⟩
  obtain ⟨graph', h'⟩ := exists_build_eagerLoads h hne
  obtain rfl : graph = graph' :=
    eq_of_build h h' (requestedPaths_eagerLoads h hne).symm
      (eagerLoads_of_build_eagerLoads h hne h').symm
  exact h'

/-- Chains with blanks around them, one of which breaks off. -/
theorem build_intercalate_forest :
    build Forest.schema Forest.node (some Forest.chains) = .ok Forest.graph ∧
      "" ∉ Forest.graph.eagerLoads ∧
      build Forest.schema Forest.node (some "parent.parent,keeper.nodes,parent") =
        .ok Forest.graph :=
  ⟨Forest.build_chains, by decide,
    (build_intercalate_eagerLoads Forest.build_chains).2 (by decide)⟩

end JoinGraph

end RequestPlan
