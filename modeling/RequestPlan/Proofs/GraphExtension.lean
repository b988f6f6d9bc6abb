import RequestPlan.Proofs.ResolvedChains

/-!
# Longer lists of chains

A walk attaches members at its end and never goes back on one. So chains that are added to the end
of a list leave everything that the list asked for where it was, under the alias it had, and add
nothing if they lead nowhere new.

* `Walk.Reaches.members_isPrefix`, `Walk.Reaches.joins_isPrefix`: growth keeps what there was;
* `Walk.followAll_append_eq_ok_iff`: a list of chains is followed part by part;
* `JoinGraph.IsExtendedBy`, `JoinGraph.exists_build_append`: the graph of the front part of a list;
* `JoinGraph.requestedPaths_append`: chains along known paths ask for no others;
* `JoinGraph.isExtendedBy_of_build_append`: the graphs of a list and of its front part.
-/

namespace RequestPlan

namespace Walk

variable {schema : Schema} {walk walk' : Walk}

theorem Reaches.members_isPrefix (h : walk.Reaches schema walk') :
    walk.closure.members <+: walk'.closure.members := by
  induction h with
  | refl => exact List.prefix_refl _
  | push _ _ ih =>
    rw [members_push]
    exact ih.trans (List.prefix_append _ _)

theorem Reaches.joins_isPrefix (h : walk.Reaches schema walk') :
    walk.steps.map Step.join <+: walk'.steps.map Step.join := by
  induction h with
  | refl => exact List.prefix_refl _
  | push _ _ ih =>
    rw [push_steps, List.map_append]
    exact ih.trans (List.prefix_append _ _)

/-- The chains at the end of a list are followed from where those before them ended. -/
theorem followAll_append_eq_ok_iff {front back : List (List String)} {reached : List Path} :
    walk.followAll schema (front ++ back) = .ok (walk', reached) ↔
      ∃ middle first second, walk.followAll schema front = .ok (middle, first) ∧
        middle.followAll schema back = .ok (walk', second) ∧ reached = first ++ second := by
  induction front generalizing walk reached with
  | nil =>
    constructor
    · intro h
      exact ⟨walk, [], reached, rfl, h, rfl⟩
    · rintro ⟨middle, first, second, hfront, hback, rfl⟩
      obtain ⟨rfl, rfl⟩ : walk = middle ∧ [] = first := by simpa [followAll] using hfront
      exact hback
  | cons chain front ih =>
    rw [List.cons_append, followAll_cons_eq_ok_iff]
    constructor
    · rintro ⟨walk₁, last, others, hfollow, hrest, rfl⟩
      obtain ⟨middle, first, second, hfront, hback, rfl⟩ := ih.1 hrest
      refine ⟨middle, _, second,
        followAll_cons_eq_ok_iff.2 ⟨walk₁, last, first, hfollow, hfront, rfl⟩,
        hback, ?_⟩
      split <;> rfl
    · rintro ⟨middle, _, second, hfirst, hback, rfl⟩
      obtain ⟨walk₁, last, first, hfollow, hfront, rfl⟩ := followAll_cons_eq_ok_iff.1 hfirst
      refine ⟨walk₁, last, first ++ second, hfollow,
        ih.2 ⟨middle, first, second, hfront, hback, rfl⟩, ?_⟩
      split <;> rfl

end Walk

/-- Two closures with the same members are the same. -/
theorem Closure.eq_of_members_eq {closure closure' : Closure}
    (h : closure.members = closure'.members) : closure = closure' := by
  obtain ⟨root, joined, hroot⟩ := closure
  obtain ⟨root', joined', hroot'⟩ := closure'
  obtain ⟨rfl, rfl⟩ := List.cons.inj h
  rfl

namespace JoinGraph

/-- The second graph has all that the first one has, in the same places, and perhaps more behind
it. -/
structure IsExtendedBy (graph longer : JoinGraph) : Prop where
  joins : graph.joins <+: longer.joins
  members : graph.closure.members <+: longer.closure.members
  eagerLoads : graph.eagerLoads <+: longer.eagerLoads

variable {schema : Schema} {root : Entity} {requested : Option String} {value more : String}
  {graph longer : JoinGraph}

theorem isExtendedBy_ofWalk {walk walk' : Walk} (h : walk.Reaches schema walk')
    (first second : List Path) :
    (ofWalk walk first).IsExtendedBy (ofWalk walk' (first ++ second)) where
  joins := h.joins_isPrefix
  members := h.members_isPrefix
  eagerLoads := by
    rw [ofWalk, ofWalk, List.map_append]
    exact eraseDups_isPrefix_append _ _

/-- The front part of a list of chains has a graph if the whole list has one, which extends it. -/
theorem exists_build_append (h : build schema root (some (value ++ "," ++ more)) = .ok longer) :
    ∃ graph, build schema root (some value) = .ok graph ∧ graph.IsExtendedBy longer := by
  obtain ⟨walk', reached, hall, rfl⟩ := build_eq_ok_iff.1 h
  rw [Option.getD_some, chainsOf_append_comma, Walk.followAll_append_eq_ok_iff] at hall
  obtain ⟨walk, first, second, hfront, hback, rfl⟩ := hall
  have hstart := Walk.sound_start schema root
  have hwalk := hstart.of_reaches (Walk.followAll_spec hstart hfront).1
  have hreach := (Walk.followAll_spec hwalk hback).1
  exact ⟨ofWalk walk first, build_eq_ok_iff.2 ⟨walk, first, hfront, rfl⟩,
    isExtendedBy_ofWalk hreach first second⟩

/-! ## Chains that lead nowhere new -/

/-- The paths along a path that is asked for are asked for too. -/
theorem mem_requestedPaths_of_mem_prefixes {path front : Path}
    (h : path ∈ requestedPaths schema root requested) (hfront : front ∈ Path.prefixes path) :
    front ∈ requestedPaths schema root requested := by
  rw [requestedPaths, List.mem_eraseDups, List.mem_flatMap] at h ⊢
  obtain ⟨chain, hchain, hpath⟩ := h
  obtain ⟨hne, hprefix⟩ := Path.mem_prefixes_iff.1 hfront
  refine ⟨chain, hchain, Path.mem_prefixes_iff.2 ⟨hne, ?_⟩⟩
  exact hprefix.trans (Path.mem_prefixes_iff.1 hpath).2

/-- Chains that lead to the root or along paths asked for already ask for no more paths. -/
theorem requestedPaths_append (h : ∀ chain ∈ chainsOf more, schema.resolved root chain ∈
      [] :: requestedPaths schema root (some value)) :
    requestedPaths schema root (some (value ++ "," ++ more)) =
      requestedPaths schema root (some value) := by
  have hknown : ∀ path ∈ (resolvedChains schema root (some more)).flatMap Path.prefixes,
      path ∈ (resolvedChains schema root (some value)).flatMap Path.prefixes := by
    intro front hfront
    obtain ⟨path, hpath, hfront⟩ := List.mem_flatMap.1 hfront
    obtain ⟨chain, hchain, rfl⟩ := List.mem_map.1 hpath
    rcases List.mem_cons.1 (h chain hchain) with hnil | hmem
    · simp [hnil] at hfront
    · exact List.mem_eraseDups.1 (mem_requestedPaths_of_mem_prefixes hmem hfront)
  have hsplit : resolvedChains schema root (some (value ++ "," ++ more)) =
      resolvedChains schema root (some value) ++ resolvedChains schema root (some more) := by
    simp only [resolvedChains, Option.getD_some, chainsOf_append_comma, List.map_append]
  rw [requestedPaths, hsplit, List.flatMap_append, eraseDups_append_of_forall_mem hknown]
  rfl

/-- The paths of the members are that of the root and those asked for. -/
theorem map_path_members_of_build (h : build schema root requested = .ok graph) :
    graph.closure.members.map Member.path = [] :: requestedPaths schema root requested := by
  rw [Closure.members, List.map_cons, graph.closure.root_path, paths_of_build h]

theorem eagerLoadTree_of_build (h : build schema root requested = .ok graph) :
    graph.eagerLoadTree = EagerLoad.ofClosure graph.closure := by
  obtain ⟨walk, reached, -, rfl⟩ := build_eq_ok_iff.1 h
  rfl

theorem length_joins_of_build (h : build schema root requested = .ok graph) :
    graph.joins.length = graph.closure.joined.length := by
  obtain ⟨walk, reached, -, rfl⟩ := build_eq_ok_iff.1 h
  exact length_joins_ofWalk walk reached

/-- An extension that asks for the same paths has the same joins and members. -/
theorem IsExtendedBy.eq_of_requestedPaths_eq {requested' : Option String}
    (he : graph.IsExtendedBy longer) (h : build schema root requested = .ok graph)
    (h' : build schema root requested' = .ok longer)
    (hpaths : requestedPaths schema root requested' = requestedPaths schema root requested) :
    longer.joins = graph.joins ∧ longer.closure = graph.closure := by
  have hlength : graph.closure.joined.length = longer.closure.joined.length := by
    have hmap := (paths_of_build h).trans (hpaths.symm.trans (paths_of_build h').symm)
    simpa using congrArg List.length hmap
  have hjoins : graph.joins = longer.joins :=
    he.joins.eq_of_length (by rw [length_joins_of_build h, length_joins_of_build h', hlength])
  have hmembers : graph.closure.members = longer.closure.members :=
    he.members.eq_of_length (by simp [Closure.members, hlength])
  exact ⟨hjoins.symm, (Closure.eq_of_members_eq hmembers).symm⟩

/-- **Chains at the end of a list change nothing about those before them.** The list without them
has a graph as well, and if they lead nowhere that it has not been, it has the same joins, members
and eager-load tree. -/
theorem isExtendedBy_of_build_append
    (h : build schema root (some (value ++ "," ++ more)) = .ok longer) :
    ∃ graph, build schema root (some value) = .ok graph ∧ graph.IsExtendedBy longer ∧
      ((∀ chain ∈ chainsOf more, ∃ member ∈ graph.closure.members,
          member.path = schema.resolved root chain) →
        longer.joins = graph.joins ∧ longer.closure = graph.closure ∧
          longer.eagerLoadTree = graph.eagerLoadTree) := by
  obtain ⟨graph, hgraph, hextended⟩ := exists_build_append h
  refine ⟨graph, hgraph, hextended, fun hknown => ?_⟩
  have hpaths : requestedPaths schema root (some (value ++ "," ++ more)) =
      requestedPaths schema root (some value) := by
    refine requestedPaths_append fun chain hchain => ?_
    obtain ⟨member, hmember, hpath⟩ := hknown chain hchain
    rw [← map_path_members_of_build hgraph, ← hpath]
    exact List.mem_map_of_mem hmember
  obtain ⟨hjoins, hclosure⟩ := hextended.eq_of_requestedPaths_eq hgraph h hpaths
  refine ⟨hjoins, hclosure, ?_⟩
  rw [eagerLoadTree_of_build h, eagerLoadTree_of_build hgraph, hclosure]

/-- Two chains more: one that was joined on the way to another, and one that breaks off. -/
theorem isExtendedBy_forest :
    build Forest.schema Forest.node (some (Forest.chains ++ "," ++ "keeper,parent.unknown")) =
        .ok { Forest.graph with eagerLoads := Forest.graph.eagerLoads ++ ["keeper"] } ∧
      (∀ chain ∈ chainsOf "keeper,parent.unknown", ∃ member ∈ Forest.graph.closure.members,
        member.path = Forest.schema.resolved Forest.node chain) ∧
      ∃ graph, build Forest.schema Forest.node (some Forest.chains) = .ok graph ∧
        graph.IsExtendedBy { Forest.graph with
          eagerLoads := Forest.graph.eagerLoads ++ ["keeper"] } ∧
        ((∀ chain ∈ chainsOf "keeper,parent.unknown", ∃ member ∈ graph.closure.members,
            member.path = Forest.schema.resolved Forest.node chain) →
          Forest.graph.joins = graph.joins ∧ Forest.graph.closure = graph.closure ∧
            Forest.graph.eagerLoadTree = graph.eagerLoadTree) := by
  have hbuild : build Forest.schema Forest.node
      (some (Forest.chains ++ "," ++ "keeper,parent.unknown")) =
        .ok { Forest.graph with eagerLoads := Forest.graph.eagerLoads ++ ["keeper"] } := by
    decide +kernel
  exact ⟨hbuild, by decide +kernel, isExtendedBy_of_build_append hbuild⟩

end JoinGraph

end RequestPlan
