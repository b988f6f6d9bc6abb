import Mathlib.Data.List.Nodup
import Mathlib.Data.List.Perm.Basic
import RequestPlan.Proofs.GraphExtension

/-!
# The tree of eager loads

The members of a closure stand in join order, in which the relations of one member may be far apart.
The tree of eager loads has them below that member. It has a node for each joined member, and its
branches are the paths of the members.

* `EagerLoad.reached`, `EagerLoad.allNodes`, `EagerLoad.siblingLists`: the nodes at the end of a
  path, all of them, and those that stand side by side;
* `EagerLoad.IsTree`: members whose paths make up a tree;
* `EagerLoad.map_reached_levels`: what a path leads to;
* `EagerLoad.perm_allNodes_levels`: no member is lost, and none comes up twice;
* `JoinGraph.mirrorsClosure_of_build`: the tree of every graph that was built is that of its
  members.
-/

namespace RequestPlan

namespace EagerLoad

/-! ## Trees -/

/-- The relation that a node fetches. -/
def relation : EagerLoad → String
  | node relation _ _ => relation

/-- The alias under which a node fetches it. -/
def tableAlias : EagerLoad → String
  | node _ tableAlias _ => tableAlias

mutual

/-- A node and all nodes below it. -/
def nodes : EagerLoad → List EagerLoad
  | node relation tableAlias children => node relation tableAlias children :: allNodes children

/-- All nodes of some trees. -/
def allNodes : List EagerLoad → List EagerLoad
  | [] => []
  | tree :: trees => tree.nodes ++ allNodes trees

end

/-- The nodes that a path leads to from the top of some trees, one relation after the other. -/
def reached : List EagerLoad → Path → List EagerLoad
  | _, [] => []
  | trees, [name] => trees.filter fun tree => tree.relation = name
  | trees, name :: next :: path =>
    reached ((trees.filter fun tree => tree.relation = name).flatMap children) (next :: path)

/-- The nodes at the top of some trees, and the children of each node. -/
def siblingLists (trees : List EagerLoad) : List (List EagerLoad) :=
  trees :: (allNodes trees).map children

theorem allNodes_eq_flatMap (trees : List EagerLoad) : allNodes trees = trees.flatMap nodes := by
  induction trees with
  | nil => rfl
  | cons tree trees ih => rw [allNodes, ih, List.flatMap_cons]

@[simp] theorem reached_no_trees (path : Path) : reached [] path = [] := by
  induction path with
  | nil => rfl
  | cons name path ih =>
    cases path with
    | nil => rfl
    | cons next path => exact ih

/-! ## Members whose paths make up a tree -/

/-- No two members have the same path, and what a path continues is the path of a member too. -/
structure IsTree (members : List Member) : Prop where
  paths_nodup : (members.map Member.path).Nodup
  exists_parent : ∀ member ∈ members, ∀ front name, member.path = front ++ [name] →
    ∃ parent ∈ members, parent.path = front

/-- The members that continue a path by one relation. -/
def continuing (members : List Member) (parent : Path) : List Member :=
  members.filter fun member => (Path.step? parent member.path).isSome

/-- The members that continue a path by one relation or more. -/
def descending (members : List Member) (parent : Path) : List Member :=
  members.filter fun member => parent <+: member.path ∧ member.path ≠ parent

/-- The node of a member, with so many levels below it. -/
def ofMember (members : List Member) (depth : ℕ) (member : Member) : EagerLoad :=
  node (member.path.getLastD "") member.tableAlias (levels members depth member.path)

variable {members : List Member} {member other : Member} {parent path : Path} {name : String}
  {depth : ℕ} {tree : EagerLoad}

theorem mem_continuing_iff :
    member ∈ continuing members parent ↔
      member ∈ members ∧ ∃ name, member.path = parent ++ [name] := by
  simp only [continuing, List.mem_filter, Option.isSome_iff_exists, Path.step?_eq_some_iff]

theorem mem_descending_iff :
    member ∈ descending members parent ↔
      member ∈ members ∧ ∃ name rest, member.path = parent ++ name :: rest := by
  simp only [descending, List.mem_filter, decide_eq_true_eq]
  refine and_congr_right fun _ => ⟨?_, ?_⟩
  · rintro ⟨⟨rest, hrest⟩, hne⟩
    cases rest with
    | nil => exact absurd (by simpa using hrest.symm) hne
    | cons name rest => exact ⟨name, rest, hrest.symm⟩
  · rintro ⟨name, rest, hpath⟩
    rw [hpath]
    exact ⟨List.prefix_append _ _, by simp⟩

theorem levels_succ (members : List Member) (depth : ℕ) (parent : Path) :
    levels members (depth + 1) parent =
      (continuing members parent).map (ofMember members depth) := by
  have hnode : ∀ member : Member,
      ((Path.step? parent member.path).map fun name =>
        node name member.tableAlias (levels members depth member.path)) =
      if (Path.step? parent member.path).isSome then some (ofMember members depth member)
      else none := by
    intro member
    cases hstep : Path.step? parent member.path with
    | none => rfl
    | some name =>
      rw [Path.step?_eq_some_iff] at hstep
      simp [ofMember, hstep]
  rw [levels, funext hnode, continuing, ← List.filterMap_eq_map, ← List.filterMap_filter]
  simp

/-- A path that goes one relation further leaves one level less below it. -/
theorem length_path_le_of_path_eq
    (hdepth : ∀ other ∈ members, other.path.length ≤ parent.length + (depth + 1))
    (hpath : member.path = parent ++ [name]) :
    ∀ other ∈ members, other.path.length ≤ member.path.length + depth := by
  intro other hother
  have hlength := hdepth other hother
  rw [hpath, List.length_append, List.length_singleton]
  omega

/-- Without a level below a path no member descends from it. -/
theorem path_ne_of_length_le (hdepth : ∀ other ∈ members, other.path.length ≤ parent.length + 0)
    (hm : member ∈ members) (name : String) (rest : Path) :
    member.path ≠ parent ++ name :: rest := by
  intro hpath
  have hlength := hdepth member hm
  rw [hpath, List.length_append, List.length_cons] at hlength
  omega

namespace IsTree

variable (h : IsTree members)

include h

theorem nodup : members.Nodup := h.paths_nodup.of_map

theorem eq_of_path_eq (hm : member ∈ members) (ho : other ∈ members)
    (hpath : member.path = other.path) : member = other :=
  List.inj_on_of_nodup_map h.paths_nodup hm ho hpath

/-- What the path of a member starts with is the path of a member. -/
theorem exists_of_append {front back : Path} (hm : member ∈ members)
    (hpath : member.path = front ++ back) : ∃ other ∈ members, other.path = front := by
  induction back using List.reverseRecOn generalizing member with
  | nil => exact ⟨member, hm, by simpa using hpath⟩
  | append_singleton back name ih =>
    rw [← List.append_assoc] at hpath
    obtain ⟨parent, hparent, hfront⟩ := h.exists_parent member hm _ name hpath
    exact ih hparent hfront

end IsTree

/-! ## What a path leads to -/

section Reached

variable {closure : Closure} (h : IsTree closure.members)

include h

/-- No path leads to a member that continues one that leads to none. -/
theorem member?_append_eq_none {front : Path} (hfront : closure.member? front = none)
    (back : Path) : closure.member? (front ++ back) = none := by
  rw [Option.eq_none_iff_forall_ne_some]
  intro member hfound
  obtain ⟨hm, hpath⟩ := (Closure.member?_eq_some_iff h.paths_nodup).1 hfound
  obtain ⟨other, ho, hother⟩ := h.exists_of_append hm hpath
  rw [(Closure.member?_eq_some_iff h.paths_nodup).2 ⟨ho, hother⟩] at hfront
  cases hfront

theorem filter_path_eq (path : Path) :
    closure.members.filter (fun member => member.path = path) =
      (closure.member? path).toList := by
  cases hfound : closure.member? path with
  | none => exact List.filter_eq_nil_iff.2 (List.find?_eq_none.1 hfound)
  | some found =>
    rw [Option.toList_some, ← List.perm_singleton,
      List.perm_ext_iff_of_nodup (h.nodup.filter _) (List.nodup_singleton found)]
    intro member
    rw [List.mem_filter, decide_eq_true_eq, ← Closure.member?_eq_some_iff h.paths_nodup, hfound,
      List.mem_singleton, Option.some_inj, eq_comm]

/-- Of the nodes one relation further, at most one is for a given relation: that of the member with
this path. -/
theorem filter_levels_succ (parent : Path) (name : String) :
    (levels closure.members (depth + 1) parent).filter (fun tree => tree.relation = name) =
      (closure.member? (parent ++ [name])).toList.map (ofMember closure.members depth) := by
  rw [levels_succ, List.filter_map, continuing, List.filter_filter, ← filter_path_eq h]
  refine congrArg _ (List.filter_congr fun member _ => ?_)
  rw [Bool.eq_iff_iff]
  simp only [Function.comp_apply, Bool.and_eq_true, decide_eq_true_eq, Option.isSome_iff_exists,
    Path.step?_eq_some_iff]
  constructor
  · rintro ⟨hname, other, hpath⟩
    have hother : other = name := by simpa [ofMember, relation, hpath] using hname
    exact hother ▸ hpath
  · intro hpath
    exact ⟨by simp [ofMember, relation, hpath], name, hpath⟩

/-- A path leads to the node of the member with that path, and to nothing if there is none. -/
theorem map_reached_levels (hpath : path ≠ [])
    (hdepth : ∀ member ∈ closure.members, member.path.length ≤ parent.length + depth) :
    (reached (levels closure.members depth parent) path).map tableAlias =
      (closure.member? (parent ++ path)).toList.map Member.tableAlias := by
  induction path generalizing parent depth with
  | nil => exact absurd rfl hpath
  | cons name path ih =>
    cases depth with
    | zero =>
      have hnone : closure.member? (parent ++ name :: path) = none := by
        rw [Option.eq_none_iff_forall_ne_some]
        intro member hfound
        exact path_ne_of_length_le hdepth (Closure.mem_of_member?_eq_some hfound) name path
          (Closure.path_of_member?_eq_some hfound)
      rw [hnone, levels, reached_no_trees]
      rfl
    | succ depth =>
      have happend : parent ++ name :: path = (parent ++ [name]) ++ path := by simp
      cases path with
      | nil =>
        rw [reached, filter_levels_succ h, List.map_map]
        rfl
      | cons next path =>
        rw [reached, filter_levels_succ h, happend]
        cases hfound : closure.member? (parent ++ [name]) with
        | none =>
          rw [member?_append_eq_none h hfound]
          simp
        | some member =>
          have hmember := Closure.path_of_member?_eq_some hfound
          rw [← hmember]
          simpa [ofMember, children] using
            ih (List.cons_ne_nil _ _) (length_path_le_of_path_eq hdepth hmember)

end Reached

/-! ## All nodes -/

theorem allNodes_levels_succ (members : List Member) (depth : ℕ) (parent : Path) :
    allNodes (levels members (depth + 1) parent) =
      (continuing members parent).flatMap fun member =>
        ofMember members depth member :: allNodes (levels members depth member.path) := by
  rw [levels_succ, allNodes_eq_flatMap, List.flatMap_map]
  rfl

/-- The members below a path are those one relation further and the members below these. -/
theorem IsTree.perm_descending (h : IsTree members) (parent : Path) :
    (descending members parent).Perm
      ((continuing members parent).flatMap fun member =>
        member :: descending members member.path) := by
  have hbelow : ∀ {member other : Member}, other ∈ member :: descending members member.path →
      member.path <+: other.path := by
    intro member other hother
    rcases List.mem_cons.1 hother with rfl | hother
    · exact List.prefix_refl _
    · obtain ⟨-, name, rest, hpath⟩ := mem_descending_iff.1 hother
      exact hpath ▸ List.prefix_append _ _
  have hnodup : ((continuing members parent).flatMap fun member =>
      member :: descending members member.path).Nodup := by
    refine List.nodup_flatMap.2 ⟨fun member _ => ?_, ?_⟩
    · refine List.nodup_cons.2 ⟨fun hself => ?_, h.nodup.filter _⟩
      obtain ⟨-, name, rest, hpath⟩ := mem_descending_iff.1 hself
      simp at hpath
    · refine (h.nodup.filter _).pairwise_of_forall_ne fun first hfirst second hsecond hne => ?_
      -- A path continues one path of a given length only.
      intro other hother hother'
      obtain ⟨hm, name, hpath⟩ := mem_continuing_iff.1 hfirst
      obtain ⟨hm', name', hpath'⟩ := mem_continuing_iff.1 hsecond
      have hlength : first.path.length = second.path.length := by simp [hpath, hpath']
      have hfront := List.prefix_of_prefix_length_le (hbelow hother) (hbelow hother') hlength.le
      exact hne (h.eq_of_path_eq hm hm' (hfront.eq_of_length hlength))
  refine (List.perm_ext_iff_of_nodup (h.nodup.filter _) hnodup).2 fun member => ?_
  rw [← descending, mem_descending_iff, List.mem_flatMap]
  constructor
  · rintro ⟨hm, name, rest, hpath⟩
    have hsplit : member.path = (parent ++ [name]) ++ rest := by simpa using hpath
    obtain ⟨next, hnext, hnextPath⟩ := h.exists_of_append hm hsplit
    refine ⟨next, mem_continuing_iff.2 ⟨hnext, name, hnextPath⟩, ?_⟩
    cases rest with
    | nil => exact List.mem_cons.2 (.inl (h.eq_of_path_eq hm hnext (hpath.trans hnextPath.symm)))
    | cons further rest =>
      refine List.mem_cons_of_mem _ (mem_descending_iff.2 ⟨hm, further, rest, ?_⟩)
      simpa [hnextPath] using hpath
  · rintro ⟨next, hnext, hmember⟩
    obtain ⟨hm, name, hpath⟩ := mem_continuing_iff.1 hnext
    rcases List.mem_cons.1 hmember with rfl | hmember
    · exact ⟨hm, name, [], hpath⟩
    · obtain ⟨hm', further, rest, hpath'⟩ := mem_descending_iff.1 hmember
      exact ⟨hm', name, further :: rest, by simp [hpath', hpath]⟩

/-- The nodes are those of the members below the path, each once. -/
theorem perm_allNodes_levels (h : IsTree members)
    (hdepth : ∀ member ∈ members, member.path.length ≤ parent.length + depth) :
    ((allNodes (levels members depth parent)).map tableAlias).Perm
      ((descending members parent).map Member.tableAlias) := by
  induction depth generalizing parent with
  | zero =>
    have hnone : descending members parent = [] := by
      refine List.eq_nil_iff_forall_not_mem.2 fun member hmember => ?_
      obtain ⟨hm, name, rest, hpath⟩ := mem_descending_iff.1 hmember
      exact path_ne_of_length_le hdepth hm name rest hpath
    rw [hnone, levels, allNodes]
    exact .nil
  | succ depth ih =>
    rw [allNodes_levels_succ, List.map_flatMap]
    refine .trans (List.Perm.flatMap_left _ fun member hmember => ?_)
      (List.map_flatMap ▸ ((h.perm_descending parent).map Member.tableAlias).symm)
    obtain ⟨-, name, hpath⟩ := mem_continuing_iff.1 hmember
    exact (ih (length_path_le_of_path_eq hdepth hpath)).cons member.tableAlias

/-- Every node is that of a member. -/
theorem exists_member_of_mem_allNodes (h : tree ∈ allNodes (levels members depth parent)) :
    ∃ member ∈ members, ∃ height, tree = ofMember members height member := by
  induction depth generalizing parent with
  | zero =>
    rw [levels, allNodes] at h
    cases h
  | succ depth ih =>
    rw [allNodes_levels_succ, List.mem_flatMap] at h
    obtain ⟨member, hmember, htree⟩ := h
    rcases List.mem_cons.1 htree with rfl | htree
    · exact ⟨member, (mem_continuing_iff.1 hmember).1, depth, rfl⟩
    · exact ih htree

/-! ## Nodes side by side -/

theorem map_tableAlias_levels_succ (members : List Member) (depth : ℕ) (parent : Path) :
    (levels members (depth + 1) parent).map tableAlias =
      (continuing members parent).map Member.tableAlias := by
  rw [levels_succ, List.map_map]
  rfl

/-- Nodes side by side are for different relations. -/
theorem nodup_map_relation_levels (h : IsTree members) :
    ((levels members depth parent).map relation).Nodup := by
  cases depth with
  | zero => exact List.nodup_nil
  | succ depth =>
    rw [levels_succ, List.map_map]
    refine List.Nodup.of_map (fun name => parent ++ [name]) ?_
    have hpaths : ((continuing members parent).map (relation ∘ ofMember members depth)).map
        (fun name => parent ++ [name]) = (continuing members parent).map Member.path := by
      rw [List.map_map]
      refine List.map_congr_left fun member hmember => ?_
      obtain ⟨-, name, hpath⟩ := mem_continuing_iff.1 hmember
      simp [ofMember, relation, hpath]
    rw [hpaths]
    exact h.paths_nodup.sublist (List.filter_sublist.map _)

/-- Nodes side by side are in the order of the joined members. -/
theorem map_tableAlias_levels_sublist (closure : Closure) (depth : ℕ) (parent : Path) :
    ((levels closure.members depth parent).map tableAlias).Sublist
      (closure.joined.map Member.tableAlias) := by
  cases depth with
  | zero => exact List.nil_sublist _
  | succ depth =>
    have hroot : (Path.step? parent closure.root.path).isSome = false := by
      simp [closure.root_path, Path.step?]
    rw [map_tableAlias_levels_succ, continuing, Closure.members,
      List.filter_cons_of_neg (by simp [hroot])]
    exact List.filter_sublist.map _

end EagerLoad

/-! ## The tree of a graph -/

namespace JoinGraph

variable {schema : Schema} {root : Entity} {requested : Option String} {graph : JoinGraph}
  {source member : Member} {name : String}

/-- The tree of eager loads as the tree of the closure. -/
structure MirrorsClosure (graph : JoinGraph) : Prop where
  /-- A path leads to a single node under the alias of its member, and to no node without one. -/
  reached : ∀ path, path ≠ [] →
    (EagerLoad.reached graph.eagerLoadTree path).map EagerLoad.tableAlias =
      (graph.closure.member? path).toList.map Member.tableAlias
  siblings_nodup : ∀ siblings ∈ EagerLoad.siblingLists graph.eagerLoadTree,
    (siblings.map EagerLoad.relation).Nodup
  /-- Nodes side by side are in join order. -/
  siblings_sublist : ∀ siblings ∈ EagerLoad.siblingLists graph.eagerLoadTree,
    (siblings.map EagerLoad.tableAlias).Sublist (graph.closure.joined.map Member.tableAlias)
  length_nodes : (EagerLoad.allNodes graph.eagerLoadTree).length = graph.joins.length
  /-- Each branch is a join. -/
  joined : ∀ parent ∈ EagerLoad.allNodes graph.eagerLoadTree, ∀ child ∈ parent.children,
    ∃ join ∈ graph.joins,
      join.sourceAlias = parent.tableAlias ∧ join.targetAlias = child.tableAlias
  /-- The nodes at the top are joined to the root. -/
  joined_root : ∀ child ∈ graph.eagerLoadTree, ∃ join ∈ graph.joins,
    join.sourceAlias = graph.closure.root.tableAlias ∧ join.targetAlias = child.tableAlias

/-- Only the root has the empty path. -/
theorem FollowsSchema.path_ne_nil (h : graph.FollowsSchema schema root)
    (hm : member ∈ graph.closure.joined) : member.path ≠ [] := by
  have hpaths := h.paths_nodup
  rw [Closure.members, List.map_cons, List.nodup_cons] at hpaths
  intro hnil
  exact hpaths.1 (graph.closure.root_path ▸ hnil ▸ List.mem_map_of_mem hm)

/-- A member that continues the path of another by one relation is joined to it. -/
theorem FollowsSchema.exists_join (h : graph.FollowsSchema schema root)
    (hs : source ∈ graph.closure.members) (hm : member ∈ graph.closure.members)
    (hpath : member.path = source.path ++ [name]) :
    ∃ join ∈ graph.joins,
      join.sourceAlias = source.tableAlias ∧ join.targetAlias = member.tableAlias := by
  have hjoined : member ∈ graph.closure.joined := by
    refine (List.mem_cons.1 hm).resolve_left fun hroot => ?_
    rw [hroot, graph.closure.root_path] at hpath
    simp at hpath
  obtain ⟨other, ho, relation, join, hj, halong⟩ := h.exists_isAlong hjoined
  have hother := (List.append_inj' (halong.path.symm.trans hpath) rfl).1
  obtain rfl := List.inj_on_of_nodup_map h.paths_nodup ho hs hother
  exact ⟨join, hj, halong.join.sourceAlias, halong.join.targetAlias⟩

theorem FollowsSchema.isTree (h : graph.FollowsSchema schema root) :
    EagerLoad.IsTree graph.closure.members where
  paths_nodup := h.paths_nodup
  exists_parent member hm front name hpath := by
    rcases List.mem_cons.1 hm with rfl | hjoined
    · rw [graph.closure.root_path] at hpath
      simp at hpath
    · obtain ⟨source, hs, relation, join, -, halong⟩ := h.exists_isAlong hjoined
      exact ⟨source, hs, (List.append_inj' (halong.path.symm.trans hpath) rfl).1⟩

/-- The members below the root are the joined ones. -/
theorem FollowsSchema.descending_nil (h : graph.FollowsSchema schema root) :
    EagerLoad.descending graph.closure.members [] = graph.closure.joined := by
  rw [EagerLoad.descending, Closure.members, List.filter_cons_of_neg
    (by simp [graph.closure.root_path]), List.filter_eq_self]
  intro member hm
  simpa using h.path_ne_nil hm

theorem FollowsSchema.exists_join_of_mem_levels (h : graph.FollowsSchema schema root)
    {depth : ℕ} {child : EagerLoad} (hs : source ∈ graph.closure.members)
    (hchild : child ∈ EagerLoad.levels graph.closure.members depth source.path) :
    ∃ join ∈ graph.joins,
      join.sourceAlias = source.tableAlias ∧ join.targetAlias = child.tableAlias := by
  cases depth with
  | zero => cases hchild
  | succ depth =>
    rw [EagerLoad.levels_succ, List.mem_map] at hchild
    obtain ⟨member, hmember, rfl⟩ := hchild
    obtain ⟨hm, name, hpath⟩ := EagerLoad.mem_continuing_iff.1 hmember
    exact h.exists_join hs hm hpath

/-- **The tree of eager loads is the tree of the members**, node by node, and its branches are the
joins. -/
theorem mirrorsClosure_of_build (h : build schema root requested = .ok graph) :
    graph.MirrorsClosure := by
  have hfollows := followsSchema_of_build h
  have htree : graph.eagerLoadTree =
      EagerLoad.levels graph.closure.members graph.closure.height [] := eagerLoadTree_of_build h
  have hheight : ∀ member ∈ graph.closure.members,
      member.path.length ≤ ([] : Path).length + graph.closure.height := by
    intro member hm
    rw [List.length_nil, Nat.zero_add]
    exact Closure.length_path_le_height hm
  -- Nodes side by side are on one level: at the top, or below a member.
  have hsiblings : ∀ siblings ∈ EagerLoad.siblingLists graph.eagerLoadTree, ∃ depth parent,
      siblings = EagerLoad.levels graph.closure.members depth parent := by
    intro siblings hs
    rw [htree, EagerLoad.siblingLists, List.mem_cons, List.mem_map] at hs
    rcases hs with rfl | ⟨tree, hmem, rfl⟩
    · exact ⟨_, _, rfl⟩
    · obtain ⟨member, -, depth, rfl⟩ := EagerLoad.exists_member_of_mem_allNodes hmem
      exact ⟨depth, member.path, rfl⟩
  constructor
  case reached =>
    intro path hpath
    rw [htree]
    exact EagerLoad.map_reached_levels hfollows.isTree hpath hheight
  case siblings_nodup =>
    intro siblings hs
    obtain ⟨depth, parent, rfl⟩ := hsiblings siblings hs
    exact EagerLoad.nodup_map_relation_levels hfollows.isTree
  case siblings_sublist =>
    intro siblings hs
    obtain ⟨depth, parent, rfl⟩ := hsiblings siblings hs
    exact EagerLoad.map_tableAlias_levels_sublist graph.closure depth parent
  case length_nodes =>
    have hperm := EagerLoad.perm_allNodes_levels hfollows.isTree hheight
    rw [hfollows.descending_nil, ← htree] at hperm
    rw [hfollows.length_joins]
    simpa using hperm.length_eq
  case joined =>
    intro parent hp child hchild
    rw [htree] at hp
    obtain ⟨source, hs, depth, rfl⟩ := EagerLoad.exists_member_of_mem_allNodes hp
    exact hfollows.exists_join_of_mem_levels hs hchild
  case joined_root =>
    intro child hchild
    rw [htree, ← graph.closure.root_path] at hchild
    exact hfollows.exists_join_of_mem_levels List.mem_cons_self hchild

end JoinGraph

/-! ## Chains that come back to a member -/

/-- Two chains and one more that goes on from where the first one ended. -/
def Forest.detour : String := "parent,keeper.nodes,parent.keeper"

/-- The graph of those chains. -/
def Forest.detourGraph : JoinGraph where
  closure :=
    { Forest.graph.closure with
      joined :=
        [⟨"nodes_1", node, ["parent"]⟩, ⟨"keepers", keeper, ["keeper"]⟩,
         ⟨"nodes_2", node, ["keeper", "nodes"]⟩, ⟨"keepers_1", keeper, ["parent", "keeper"]⟩] }
  joins :=
    [⟨.left, "nodes", "parent_id", "nodes", "nodes_1", "id"⟩,
     ⟨.left, "nodes", "keeper_code", "keepers", "keepers", "code"⟩,
     ⟨.right, "keepers", "code", "nodes", "nodes_2", "keeper_code"⟩,
     ⟨.left, "nodes_1", "keeper_code", "keepers", "keepers_1", "code"⟩]
  eagerLoads := ["parent", "keeper.nodes", "parent.keeper"]
  eagerLoadTree :=
    [.node "parent" "nodes_1" [.node "keeper" "keepers_1" []],
     .node "keeper" "keepers" [.node "nodes" "nodes_2" []]]

theorem JoinGraph.mirrorsClosure_forest :
    JoinGraph.build Forest.schema Forest.node (some Forest.detour) = .ok Forest.detourGraph ∧
      Forest.detourGraph.MirrorsClosure := by
  have hbuild : JoinGraph.build Forest.schema Forest.node (some Forest.detour) =
      .ok Forest.detourGraph := by decide +kernel
  exact ⟨hbuild, mirrorsClosure_of_build hbuild⟩

end RequestPlan
