import RequestPlan.Proofs.JoinGraph
import RequestPlan.Proofs.Listing

/-!
# What a list of chains asks for

The members and the eager loads of a graph, read off the list of chains alone: without a walk, a
table of known paths or aliases. Each chain counts as far as it leads, whatever the others do.

* `JoinGraph.resolvedChains`, `JoinGraph.requestedPaths`: the resolved part of each chain, and the
  paths along them;
* `JoinGraph.paths_of_build`, `JoinGraph.eagerLoads_of_build`: a graph has exactly these;
* `JoinGraph.exists_build_iff`: when there is a graph;
* `JoinGraph.matchesChains_of_build`: what follows for chains that break off, share a beginning or
  change places.
-/

namespace RequestPlan

namespace JoinGraph

variable {schema : Schema} {root : Entity} {requested : Option String} {graph : JoinGraph}

/-- The resolved part of each chain. -/
def resolvedChains (schema : Schema) (root : Entity) (requested : Option String) : List Path :=
  (chainsOf (requested.getD "")).map (schema.resolved root)

/-- The paths along the resolved chains, chain by chain and the shorter ones first, each where it
comes up first. -/
def requestedPaths (schema : Schema) (root : Entity) (requested : Option String) : List Path :=
  ((resolvedChains schema root requested).flatMap Path.prefixes).eraseDups

/-- The paths asked for are those along some chain that lead to an entity. -/
theorem mem_requestedPaths_iff {path : Path} :
    path ∈ requestedPaths schema root requested ↔
      path ≠ [] ∧ ∃ chain ∈ chainsOf (requested.getD ""),
        path <+: chain ∧ (schema.follow? root path).isSome := by
  simp only [requestedPaths, resolvedChains, List.mem_eraseDups, List.flatMap_map,
    List.mem_flatMap, Path.mem_prefixes_iff, Schema.isPrefix_resolved_iff]
  constructor
  · rintro ⟨chain, hchain, hne, hpath⟩
    exact ⟨hne, chain, hchain, hpath⟩
  · rintro ⟨hne, chain, hchain, hpath⟩
    exact ⟨chain, hchain, hne, hpath⟩

/-- The names of a resolved chain can be written into a list of chains. -/
theorem isChainName_of_mem_resolvedChains {path : Path}
    (h : path ∈ resolvedChains schema root requested) : ∀ name ∈ path, Text.IsChainName name := by
  obtain ⟨chain, hchain, rfl⟩ := List.mem_map.1 h
  obtain ⟨entry, hentry, rfl⟩ := List.mem_map.1 hchain
  intro name hname
  exact Text.isChainName_of_mem_chainNames (Text.isEntry_of_mem_entries hentry).comma
    ((schema.resolved_isPrefix root (Text.chainNames entry)).subset hname)

theorem dot_not_mem_of_mem_resolvedChains {path : Path}
    (h : path ∈ resolvedChains schema root requested) : ∀ name ∈ path, '.' ∉ name.toList := by
  intro name hname
  exact (isChainName_of_mem_resolvedChains h name hname).dot

/-- The joined members are those that the chains ask for, in that order. -/
theorem paths_of_build (h : build schema root requested = .ok graph) :
    graph.closure.joined.map Member.path = requestedPaths schema root requested := by
  obtain ⟨walk, reached, hall, rfl⟩ := build_eq_ok_iff.1 h
  obtain ⟨-, hpaths, -⟩ := Walk.followAll_spec (Walk.sound_start schema root) hall
  have hjoined : (ofWalk walk reached).closure.joined.map Member.path = walk.paths := by
    simp [ofWalk, Walk.closure, Walk.paths]
  rw [hjoined, hpaths, requestedPaths, resolvedChains, List.flatMap_map]
  rfl

/-- The eager loads are the resolved chains as they are written, those of no length left out. -/
theorem eagerLoads_of_build (h : build schema root requested = .ok graph) :
    graph.eagerLoads =
      (((resolvedChains schema root requested).filter (· ≠ [])).map Text.chain).eraseDups := by
  obtain ⟨walk, reached, hall, rfl⟩ := build_eq_ok_iff.1 h
  obtain ⟨-, -, rfl⟩ := Walk.followAll_spec (Walk.sound_start schema root) hall
  rfl

/-- There is a graph exactly if every relation that a chain gets to can be joined. -/
theorem exists_build_iff :
    (∃ graph, build schema root requested = .ok graph) ↔
      ∀ chain ∈ chainsOf (requested.getD ""), schema.IsPassable root chain := by
  rw [← Walk.exists_followAll_iff (Walk.sound_start schema root)]
  constructor
  · rintro ⟨graph, h⟩
    obtain ⟨walk, reached, hall, -⟩ := build_eq_ok_iff.1 h
    exact ⟨_, hall⟩
  · rintro ⟨⟨walk, reached⟩, hall⟩
    exact ⟨_, build_eq_ok_iff.2 ⟨walk, reached, hall, rfl⟩⟩

/-- How a graph answers to the chains it was asked for. -/
structure MatchesChains (schema : Schema) (root : Entity) (requested : Option String)
    (graph : JoinGraph) : Prop where
  paths : graph.closure.joined.map Member.path = requestedPaths schema root requested
  eagerLoads : graph.eagerLoads =
    (((resolvedChains schema root requested).filter (· ≠ [])).map Text.chain).eraseDups
  /-- Each chain is joined as far as it leads. -/
  joined_iff : ∀ path, path ∈ graph.closure.joined.map Member.path ↔
    path ≠ [] ∧ ∃ chain ∈ chainsOf (requested.getD ""),
      path <+: chain ∧ (schema.follow? root path).isSome
  /-- A name that is no relation ends its chain. -/
  truncated : ∀ front name back last, front ++ name :: back ∈ chainsOf (requested.getD "") →
    schema.follow? root front = some last → last.relation? name = none →
      schema.resolved root (front ++ name :: back) = front
  /-- Each joined member is on the way to something that is fetched along. -/
  covered : ∀ member ∈ graph.closure.joined, ∃ path ∈ resolvedChains schema root requested,
    member.path <+: path ∧ Text.chain path ∈ graph.eagerLoads
  /-- Different chains are written differently. -/
  distinct : ∀ p ∈ resolvedChains schema root requested,
    ∀ q ∈ resolvedChains schema root requested, p ≠ [] → q ≠ [] →
      Text.chain p = Text.chain q → p = q
  /-- The same chains in another order are joined just as well, and to the same members. -/
  reordered : ∀ other : String, (chainsOf other).Perm (chainsOf (requested.getD "")) →
    ∃ graph', build schema root (some other) = .ok graph' ∧
      ∀ path, path ∈ graph'.closure.joined.map Member.path ↔
        path ∈ graph.closure.joined.map Member.path

/-- A joined path lies along a resolved chain, which is fetched along. -/
theorem exists_eagerLoad_of_mem_joined (h : build schema root requested = .ok graph)
    {member : Member} (hm : member ∈ graph.closure.joined) :
    ∃ path ∈ resolvedChains schema root requested,
      member.path <+: path ∧ Text.chain path ∈ graph.eagerLoads := by
  have hpath : member.path ∈ requestedPaths schema root requested :=
    paths_of_build h ▸ List.mem_map_of_mem hm
  rw [requestedPaths, List.mem_eraseDups, List.mem_flatMap] at hpath
  obtain ⟨path, hresolved, hprefix⟩ := hpath
  obtain ⟨hne, hprefix⟩ := Path.mem_prefixes_iff.1 hprefix
  refine ⟨path, hresolved, hprefix, ?_⟩
  have hpath : path ≠ [] := by
    rintro rfl
    exact hne (List.prefix_nil.1 hprefix)
  rw [eagerLoads_of_build h, List.mem_eraseDups]
  exact List.mem_map_of_mem (List.mem_filter.2 ⟨hresolved, by simpa using hpath⟩)

/-- Chains that can be joined can be joined in any order, to the same members. -/
theorem exists_build_of_perm (h : build schema root requested = .ok graph) {other : String}
    (hperm : (chainsOf other).Perm (chainsOf (requested.getD ""))) :
    ∃ graph', build schema root (some other) = .ok graph' ∧
      ∀ path, path ∈ graph'.closure.joined.map Member.path ↔
        path ∈ graph.closure.joined.map Member.path := by
  have hpassable := exists_build_iff.1 ⟨graph, h⟩
  obtain ⟨graph', h'⟩ : ∃ graph', build schema root (some other) = .ok graph' :=
    exists_build_iff.2 fun chain hchain => hpassable chain (hperm.mem_iff.1 hchain)
  refine ⟨graph', h', fun path => ?_⟩
  rw [paths_of_build h, paths_of_build h', mem_requestedPaths_iff, mem_requestedPaths_iff]
  simp only [Option.getD_some, hperm.mem_iff]

/-- **A graph answers to its list of chains, one chain at a time.** -/
theorem matchesChains_of_build (h : build schema root requested = .ok graph) :
    graph.MatchesChains schema root requested where
  paths := paths_of_build h
  eagerLoads := eagerLoads_of_build h
  joined_iff path := by rw [paths_of_build h, mem_requestedPaths_iff]
  truncated front name back last _ hfront hname :=
    Schema.resolved_append_of_relation?_eq_none hfront hname back
  covered member hm := exists_eagerLoad_of_mem_joined h hm
  distinct p hp q hq hne hne' heq :=
    Text.chain_inj hne hne' (dot_not_mem_of_mem_resolvedChains hp)
      (dot_not_mem_of_mem_resolvedChains hq) heq
  reordered _ hperm := exists_build_of_perm h hperm

theorem matchesChains_forest :
    build Forest.schema Forest.node (some Forest.chains) = .ok Forest.graph ∧
      Forest.graph.MatchesChains Forest.schema Forest.node (some Forest.chains) :=
  ⟨Forest.build_chains, matchesChains_of_build Forest.build_chains⟩

end JoinGraph

end RequestPlan
