import Mathlib.Data.List.Nodup
import RequestPlan.Proofs.FieldResolution
import RequestPlan.Proofs.JoinGraph

/-!
# The order of the search for an owner

A name can stand for several owners, and the search finds the first of them. Each way down to an
owner leaves a trail of numbers: zero for the relation that the whole name is, and for a relation
that the name starts with one more than its length. The search goes through the trails in
lexicographic order, so that a relation name that leads nowhere hides no longer one.

* `Closure.Leads`, `Closure.related?_eq_some_iff`: the relations that lead on in a closure;
* `Closure.Traces`, `Closure.resolves_iff_exists_traces`: the ways to an owner, with their trails;
* `descentNumber`, `pairwise_descents`: descents are tried in the order of their numbers;
* `Closure.IsFirst`, `Closure.FindsFirst`: what the search has to find;
* `JoinGraph.FollowsSchema.resolves_of_member`: every member is reached from the root by its path;
* `JoinGraph.findsFirst_of_build`: the search finds the first owner, if there is any.
-/

namespace RequestPlan

/-! ## The order of descents -/

/-- The number of the descent along the relation of the given name. -/
def descentNumber (field name : String) : ℕ :=
  if name = field then 0 else name.length + 1

theorem descentNumber_self (field : String) : descentNumber field field = 0 := if_pos rfl

theorem descentNumber_append (name rest : String) :
    descentNumber (name ++ "_" ++ rest) name = name.length + 1 := by
  refine if_neg fun heq => ?_
  have hlength := congrArg String.length heq
  rw [String.length_append, String.length_append] at hlength
  have hone : "_".length = 1 := rfl
  omega

/-- Descents are tried in the order of their numbers. -/
theorem pairwise_descents (field : String) :
    (descents field).Pairwise fun first second =>
      descentNumber field first.1 < descentNumber field second.1 := by
  have hcut : ∀ descent ∈ (descents field).tail,
      descentNumber field descent.1 = descent.1.length + 1 := by
    intro descent hdescent
    obtain ⟨⟨before, after⟩, hmem, rfl⟩ := List.mem_map.1 hdescent
    have hfield : String.ofList before ++ "_" ++ String.ofList after = field := by
      rw [← String.toList_inj]
      simpa using Text.mem_cuts.1 hmem
    rw [← hfield]
    exact descentNumber_append _ _
  refine List.pairwise_cons.2 ⟨fun descent hdescent => ?_, ?_⟩
  · rw [descentNumber_self, hcut descent hdescent]
    exact Nat.succ_pos _
  · have hlengths : (descents field).tail.Pairwise
        fun first second => first.1.length < second.1.length := by
      refine List.pairwise_map.2 ((Text.pairwise_cuts '_' field.toList).imp fun h => ?_)
      simpa using h
    refine hlengths.imp_of_mem fun hfirst hsecond hlt => ?_
    rw [hcut _ hfirst, hcut _ hsecond]
    exact Nat.succ_lt_succ hlt

/-- The number of a descent says which one it is. -/
theorem eq_of_descentNumber_eq {field : String} {first second : String × String}
    (hfirst : first ∈ descents field) (hsecond : second ∈ descents field)
    (h : descentNumber field first.1 = descentNumber field second.1) : first = second := by
  have hnodup : ((descents field).map fun descent => descentNumber field descent.1).Nodup :=
    List.pairwise_map.2 ((pairwise_descents field).imp Nat.ne_of_lt)
  exact List.inj_on_of_nodup_map hnodup hfirst hsecond h

namespace Closure

/-! ## Trails -/

/-- A relation of the first member leads to the second one. -/
structure Leads (closure : Closure) (source : Member) (name : String) (target : Member) : Prop where
  declared : ∃ relation, source.entity.relation? name = some relation
  mem : target ∈ closure.members
  path : target.path = source.path ++ [name]

/-- An owner that a name may stand for, seen from a member, with the numbers of the descents that
lead there. -/
inductive Traces (closure : Closure) : List ℕ → Member → String → FieldOwner → Prop where
  /-- The name is that of a searchable field. -/
  | own {member : Member} {field : String} (h : member.entity.isSearchable field = true) :
      Traces closure [] member field ⟨member, field⟩
  /-- The name is that of a joined relation too. -/
  | same {trail : List ℕ} {member next : Member} {field : String} {owner : FieldOwner}
      (hl : closure.Leads member field next) (h : Traces closure trail next field owner) :
      Traces closure (0 :: trail) member field owner
  /-- The name starts with that of a joined relation. -/
  | along {trail : List ℕ} {member next : Member} {name rest : String} {owner : FieldOwner}
      (hl : closure.Leads member name next) (h : Traces closure trail next rest owner) :
      Traces closure ((name.length + 1) :: trail) member (name ++ "_" ++ rest) owner

/-- No trail comes before this one. -/
structure IsFirst (closure : Closure) (trail : List ℕ) (member : Member) (field : String)
    (owner : FieldOwner) : Prop where
  traces : closure.Traces trail member field owner
  first : ∀ other owner', closure.Traces other member field owner' →
    other = trail ∨ List.Lex (· < ·) trail other

variable {closure : Closure} {member source target next : Member} {name rest field : String}
  {owner owner' : FieldOwner} {trail : List ℕ}

/-- Where no path occurs twice, relations are followed by their paths. -/
theorem related?_eq_some_iff (hpaths : (closure.members.map Member.path).Nodup) :
    closure.related? source name = some target ↔ closure.Leads source name target := by
  rw [related?, Option.ite_none_right_eq_some, member?_eq_some_iff hpaths,
    Option.isSome_iff_exists]
  constructor
  · rintro ⟨hdeclared, hmem, hpath⟩
    exact ⟨hdeclared, hmem, hpath⟩
  · rintro ⟨hdeclared, hmem, hpath⟩
    exact ⟨hdeclared, hmem, hpath⟩

theorem traces_nil_iff :
    closure.Traces [] member field owner ↔
      member.entity.isSearchable field = true ∧ owner = ⟨member, field⟩ := by
  constructor
  · intro h
    cases h with
    | own hown => exact ⟨hown, rfl⟩
  · rintro ⟨hown, rfl⟩
    exact .own hown

/-- A longer trail goes down one descent and on from there. -/
theorem traces_cons_iff {number : ℕ} :
    closure.Traces (number :: trail) member field owner ↔
      ∃ name rest next, (name, rest) ∈ descents field ∧ descentNumber field name = number ∧
        closure.Leads member name next ∧ closure.Traces trail next rest owner := by
  constructor
  · intro h
    cases h with
    | @same _ _ next _ _ hl h =>
      exact ⟨field, field, next, mem_descents.2 (.inl ⟨rfl, rfl⟩), descentNumber_self field, hl, h⟩
    | @along _ _ next name rest _ hl h =>
      exact ⟨name, rest, next, mem_descents.2 (.inr rfl), descentNumber_append name rest, hl, h⟩
  · rintro ⟨name, rest, next, hd, rfl, hl, h⟩
    rcases mem_descents.1 hd with ⟨rfl, rfl⟩ | rfl
    · rw [descentNumber_self]
      exact .same hl h
    · rw [descentNumber_append]
      exact .along hl h

section Distinct

variable (hpaths : (closure.members.map Member.path).Nodup)
include hpaths

theorem Traces.resolves (h : closure.Traces trail member field owner) :
    closure.Resolves member field owner := by
  induction h with
  | own hown => exact .own hown
  | same hl _ ih => exact .same ((related?_eq_some_iff hpaths).2 hl) ih
  | along hl _ ih => exact .along ((related?_eq_some_iff hpaths).2 hl) ih

/-- The owners that a name may stand for are those with a trail. -/
theorem resolves_iff_exists_traces :
    closure.Resolves member field owner ↔ ∃ trail, closure.Traces trail member field owner := by
  constructor
  · intro h
    induction h with
    | own hown => exact ⟨[], .own hown⟩
    | same hr _ ih =>
      obtain ⟨trail, htrail⟩ := ih
      exact ⟨_, .same ((related?_eq_some_iff hpaths).1 hr) htrail⟩
    | along hr _ ih =>
      obtain ⟨trail, htrail⟩ := ih
      exact ⟨_, .along ((related?_eq_some_iff hpaths).1 hr) htrail⟩
  · rintro ⟨trail, htrail⟩
    exact htrail.resolves hpaths

/-- A trail leads to a single owner. -/
theorem Traces.unique (h : closure.Traces trail member field owner)
    (h' : closure.Traces trail member field owner') : owner = owner' := by
  induction trail generalizing member field with
  | nil => rw [(traces_nil_iff.1 h).2, (traces_nil_iff.1 h').2]
  | cons number trail ih =>
    obtain ⟨name, rest, next, hd, hnumber, hl, h⟩ := traces_cons_iff.1 h
    obtain ⟨name', rest', next', hd', hnumber', hl', h'⟩ := traces_cons_iff.1 h'
    obtain ⟨rfl, rfl⟩ := Prod.mk.inj (eq_of_descentNumber_eq hd hd' (hnumber.trans hnumber'.symm))
    rw [← related?_eq_some_iff hpaths] at hl hl'
    obtain rfl : next = next' := by simpa [hl] using hl'
    exact ih h h'

/-! ## The first trail -/

/-- The first trail goes down the first descent that leads anywhere, and on by the first trail from
there. -/
theorem IsFirst.cons {before after : List (String × String)}
    (hown : member.entity.isSearchable field = false)
    (hsplit : descents field = before ++ (name, rest) :: after)
    (hl : closure.Leads member name next)
    (hbefore : ∀ descent ∈ before, ∀ next, closure.Leads member descent.1 next →
      ∀ owner, ¬ closure.Resolves next descent.2 owner)
    (h : closure.IsFirst trail next rest owner) :
    closure.IsFirst (descentNumber field name :: trail) member field owner where
  traces := by
    have hd : (name, rest) ∈ descents field := by simp [hsplit]
    exact traces_cons_iff.2 ⟨name, rest, next, hd, rfl, hl, h.traces⟩
  first other owner' h' := by
    cases other with
    | nil => exact absurd (traces_nil_iff.1 h').1 (by simp [hown])
    | cons number other =>
      obtain ⟨name', rest', next', hd, rfl, hl', h'⟩ := traces_cons_iff.1 h'
      rw [hsplit, List.mem_append, List.mem_cons] at hd
      rcases hd with hd | heq | hd
      · exact absurd (h'.resolves hpaths) (hbefore _ hd next' hl' owner')
      · obtain ⟨rfl, rfl⟩ := Prod.mk.inj heq
        rw [← related?_eq_some_iff hpaths] at hl hl'
        obtain rfl : next = next' := by simpa [hl] using hl'
        rcases h.first other owner' h' with rfl | hlex
        · exact .inl rfl
        · exact .inr (.cons hlex)
      · have hordered := pairwise_descents field
        rw [hsplit, List.pairwise_append, List.pairwise_cons] at hordered
        exact .inr (.rel (hordered.2.1.1 _ hd))

/-- What the search finds has the first trail. -/
theorem exists_isFirst_of_resolve? (h : closure.resolve? member field = some owner) :
    ∃ trail, closure.IsFirst trail member field owner := by
  induction member using closure.descent_induction generalizing field with
  | step member ih =>
    rw [resolve?_eq] at h
    split at h
    · next hown =>
      obtain rfl := Option.some.inj h
      refine ⟨[], .own hown, fun other _ _ => ?_⟩
      cases other with
      | nil => exact .inl rfl
      | cons => exact .inr .nil
    · next hown =>
      obtain ⟨before, ⟨name, rest⟩, after, hsplit, hfound, hbefore⟩ :=
        List.findSome?_eq_some_iff.1 h
      obtain ⟨next, hr, hnext⟩ := Option.bind_eq_some_iff.1 hfound
      obtain ⟨trail, htrail⟩ := ih name next hr hnext
      refine ⟨_, htrail.cons hpaths (by simpa using hown) hsplit
        ((related?_eq_some_iff hpaths).1 hr) fun descent hd other hl owner' hresolves => ?_⟩
      have hnone := hbefore descent hd
      rw [(related?_eq_some_iff hpaths).2 hl, Option.bind_some] at hnone
      have hsome := isSome_resolve?_iff.2 ⟨owner', hresolves⟩
      simp [hnone] at hsome

theorem resolve?_eq_some_iff :
    closure.resolve? member field = some owner ↔
      ∃ trail, closure.IsFirst trail member field owner := by
  refine ⟨exists_isFirst_of_resolve? hpaths, ?_⟩
  rintro ⟨trail, htrail⟩
  have hsome := isSome_resolve?_iff.2 ⟨owner, htrail.traces.resolves hpaths⟩
  obtain ⟨found, hfound⟩ := Option.isSome_iff_exists.1 hsome
  obtain ⟨other, hother⟩ := exists_isFirst_of_resolve? hpaths hfound
  -- Of two first trails neither comes before the other, so they are the same.
  obtain rfl : other = trail := by
    rcases htrail.first other found hother.traces with heq | hlex
    · exact heq
    · rcases hother.first trail owner htrail.traces with heq | hlex'
      · exact heq.symm
      · exact absurd hlex' (List.lt_asymm hlex)
  rw [hfound, hother.traces.unique hpaths htrail.traces]

/-- Descents that lead to no owner are passed over, the shorter prefixes among them. -/
theorem resolve?_of_dead_ends (hown : member.entity.isSearchable (name ++ "_" ++ rest) = false)
    (hsame : ∀ next, closure.Leads member (name ++ "_" ++ rest) next →
      closure.resolve? next (name ++ "_" ++ rest) = none)
    (hshorter : ∀ name' rest' next, name' ++ "_" ++ rest' = name ++ "_" ++ rest →
      name'.length < name.length → closure.Leads member name' next →
        closure.resolve? next rest' = none)
    (hl : closure.Leads member name next) (h : closure.resolve? next rest = some owner) :
    closure.resolve? member (name ++ "_" ++ rest) = some owner := by
  have hd : (name, rest) ∈ descents (name ++ "_" ++ rest) := mem_descents.2 (.inr rfl)
  obtain ⟨before, after, hsplit⟩ := List.append_of_mem hd
  have hordered := pairwise_descents (name ++ "_" ++ rest)
  rw [hsplit, List.pairwise_append] at hordered
  have hnone : ∀ descent ∈ before, ∀ next, closure.Leads member descent.1 next →
      closure.resolve? next descent.2 = none := by
    rintro ⟨name', rest'⟩ hdescent next hl'
    have hmem : (name', rest') ∈ descents (name ++ "_" ++ rest) := by
      rw [hsplit]
      exact List.mem_append_left _ hdescent
    have hlt := hordered.2.2 _ hdescent _ List.mem_cons_self
    rcases mem_descents.1 hmem with ⟨rfl, rfl⟩ | heq
    · exact hsame next hl'
    · refine hshorter name' rest' next heq ?_ hl'
      rw [descentNumber_append, ← heq, descentNumber_append] at hlt
      exact Nat.lt_of_succ_lt_succ hlt
  rw [resolve?_eq, if_neg (by simp [hown]), List.findSome?_eq_some_iff]
  refine ⟨before, (name, rest), after, hsplit, ?_, fun descent hdescent => ?_⟩
  · rw [(related?_eq_some_iff hpaths).2 hl, Option.bind_some, h]
  · refine Option.bind_eq_none_iff.2 fun next hr => ?_
    exact hnone descent hdescent next ((related?_eq_some_iff hpaths).1 hr)

end Distinct

/-! ## What the search finds -/

/-- What the search for the owner of a name finds, seen from a member. -/
structure FindsFirst (closure : Closure) (member : Member) (field : String) : Prop where
  /-- The owners that the name may stand for are those with a trail. -/
  resolves_iff : ∀ owner,
    closure.Resolves member field owner ↔ ∃ trail, closure.Traces trail member field owner
  /-- Nothing is found only where there is no owner at all. -/
  eq_none_iff : closure.resolve? member field = none ↔
    ∀ owner, ¬ closure.Resolves member field owner
  /-- What is found is the owner with the first trail. -/
  eq_some_iff : ∀ owner, closure.resolve? member field = some owner ↔
    ∃ trail, closure.IsFirst trail member field owner
  /-- An owner behind a relation that the name starts with is found if nothing before leads to
  one. -/
  dead_ends : ∀ name rest next owner, field = name ++ "_" ++ rest →
    member.entity.isSearchable field = false →
    (∀ next, closure.Leads member field next → closure.resolve? next field = none) →
    (∀ name' rest' next, name' ++ "_" ++ rest' = field → name'.length < name.length →
      closure.Leads member name' next → closure.resolve? next rest' = none) →
    closure.Leads member name next → closure.resolve? next rest = some owner →
      closure.resolve? member field = some owner

theorem findsFirst (hpaths : (closure.members.map Member.path).Nodup) (member : Member)
    (field : String) : closure.FindsFirst member field where
  resolves_iff _ := resolves_iff_exists_traces hpaths
  eq_none_iff := by
    rw [← Option.not_isSome_iff_eq_none, isSome_resolve?_iff, not_exists]
  eq_some_iff _ := resolve?_eq_some_iff hpaths
  dead_ends := by
    rintro name rest next owner rfl hown hsame hshorter hl h
    exact resolve?_of_dead_ends hpaths hown hsame hshorter hl h

end Closure

/-! ## Members under their paths -/

theorem intercalate_concat_append (names : List String) (name rest : String) :
    "_".intercalate (names ++ [name ++ "_" ++ rest]) =
      "_".intercalate (names ++ [name] ++ [rest]) := by
  induction names with
  | nil => simp
  | cons first names ih => cases names <;> simp_all

namespace JoinGraph

variable {schema : Schema} {root : Entity} {requested : Option String} {graph : JoinGraph}
  {member : Member} {field : String} {owner : FieldOwner}

/-- A relation of another member leads to each joined member. -/
theorem FollowsSchema.exists_leads (h : graph.FollowsSchema schema root)
    (hm : member ∈ graph.closure.joined) :
    ∃ source ∈ graph.closure.members, ∃ name, graph.closure.Leads source name member := by
  obtain ⟨source, hsource, relation, join, -, halong⟩ := h.exists_isAlong hm
  exact ⟨source, hsource, relation.name, ⟨relation, halong.declared⟩,
    List.mem_cons_of_mem _ hm, halong.path⟩

/-- What a name stands for at a member, it stands for at the root behind the path of the member. -/
theorem FollowsSchema.resolves_of_member (h : graph.FollowsSchema schema root)
    (hm : member ∈ graph.closure.members) (hr : graph.closure.Resolves member field owner) :
    graph.closure.Resolves graph.closure.root ("_".intercalate (member.path ++ [field])) owner := by
  -- The member that a relation leads from has a shorter path.
  induction hn : member.path.length using Nat.strongRecOn generalizing member field with
  | _ n ih =>
    rcases List.mem_cons.1 hm with rfl | hjoined
    · simpa [graph.closure.root_path] using hr
    · obtain ⟨source, hsource, name, hl⟩ := h.exists_leads hjoined
      have hlonger : source.path.length < n := by
        rw [← hn, hl.path, List.length_append]
        exact Nat.lt_succ_self _
      have hstep := (Closure.related?_eq_some_iff h.paths_nodup).2 hl
      have hroot := ih _ hlonger hsource (.along hstep hr) rfl
      rwa [intercalate_concat_append, ← hl.path] at hroot

/-- **The search finds the first owner that a name may stand for**, and every field of a joined
member has a name that stands for an owner. -/
theorem findsFirst_of_build (h : build schema root requested = .ok graph) :
    (∀ member field, graph.closure.FindsFirst member field) ∧
      ∀ member ∈ graph.closure.joined, ∀ field, member.entity.isSearchable field = true →
        (graph.closure.resolve? graph.closure.root
          ("_".intercalate (member.path ++ [field]))).isSome := by
  have hfollows := followsSchema_of_build h
  refine ⟨Closure.findsFirst hfollows.paths_nodup, fun member hm field hown => ?_⟩
  have hresolves := hfollows.resolves_of_member (List.mem_cons_of_mem _ hm) (.own hown)
  exact Closure.isSome_resolve?_iff.2 ⟨_, hresolves⟩

end JoinGraph

/-! ## A relation name that another one starts with -/

/-- Plants with another plant beside them and the parent of another one. -/
def Hedge.plant : Entity where
  name := "Plant"
  tableName := "plants"
  primaryKey := "id"
  searchable := .ofList ["name"]
  relations := Relation.byName
    [⟨"other", .toOne, "other_id", "Plant", none⟩,
     ⟨"other_parent", .toOne, "other_parent_id", "Plant", none⟩]
  tag := "plant"
  relations_named := by decide +kernel

/-- The schema of plants. -/
def Hedge.schema : Schema := .ofEntities [plant]

/-- The graph of both relations. -/
def Hedge.graph : JoinGraph where
  closure :=
    { root := ⟨"plants", plant, []⟩
      joined := [⟨"plants_1", plant, ["other"]⟩, ⟨"plants_2", plant, ["other_parent"]⟩]
      root_path := rfl }
  joins :=
    [⟨.left, "plants", "other_id", "plants", "plants_1", "id"⟩,
     ⟨.left, "plants", "other_parent_id", "plants", "plants_2", "id"⟩]
  eagerLoads := ["other", "other_parent"]
  eagerLoadTree := [.node "other" "plants_1" [], .node "other_parent" "plants_2" []]

theorem JoinGraph.findsFirst_hedge :
    build Hedge.schema Hedge.plant (some "other,other_parent") = .ok Hedge.graph ∧
      (∀ member field, Hedge.graph.closure.FindsFirst member field) ∧
      ∀ member ∈ Hedge.graph.closure.joined, ∀ field,
        member.entity.isSearchable field = true →
          (Hedge.graph.closure.resolve? Hedge.graph.closure.root
            ("_".intercalate (member.path ++ [field]))).isSome := by
  have hbuild : build Hedge.schema Hedge.plant (some "other,other_parent") = .ok Hedge.graph := by
    decide +kernel
  exact ⟨hbuild, findsFirst_of_build hbuild⟩

/-- The shorter relation name leads to a plant without the rest of the name among its fields. -/
example : (Hedge.graph.closure.resolve? Hedge.graph.closure.root "other_parent_name").map
    (fun owner => (owner.member.tableAlias, owner.field)) = some ("plants_2", "name") := by
  decide +kernel

end RequestPlan
