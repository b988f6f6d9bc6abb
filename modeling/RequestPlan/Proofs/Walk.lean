import Mathlib.Data.List.Nodup
import RequestPlan.JoinGraph
import RequestPlan.Proofs.FirstOccurrences
import RequestPlan.Proofs.Outcome
import RequestPlan.Proofs.RelationPath

/-!
# What a walk attaches

A walk only ever grows by one step at a time, along a relation of one of its members, to a path that
it has not been to and under an alias that is free. Everything that holds of a walk by this rule is
proved once for `Walk.push` and carried along `Walk.Reaches`.

* `Join.IsAlong`, `Step.IsAlong`: the join and the step that a relation prescribes;
* `Closure.member?_eq_some_iff`: look-up where no path occurs twice;
* `Walk.Admits`, `Walk.push`, `Walk.Reaches`: one step of growth, and many;
* `Walk.Sound`: the invariant of the walks that started at an entity;
* `Walk.advance_spec`, `Walk.follow_spec`, `Walk.followAll_spec`: what one relation, one chain and
  all chains add to a walk;
* `Walk.exists_followAll_iff`: when the chains can be followed at all.
-/

namespace RequestPlan

/-! ## Joins and steps along a relation -/

/-- The join from a member along a relation to a target under the given alias. -/
structure Join.IsAlong (source : Member) (relation : Relation) (target : Entity)
    (targetAlias : String) (join : Join) : Prop where
  sourceAlias : join.sourceAlias = source.tableAlias
  targetAlias : join.targetAlias = targetAlias
  targetTable : join.targetTable = target.tableName
  /-- Every join follows a relation whose kind has a meaning. -/
  known : relation.kind.IsKnown
  /-- A to-one relation has its foreign key on the source. -/
  toOne : relation.kind = .toOne →
    join.direction = .left ∧ join.sourceKey = relation.foreignKey ∧
      join.targetKey = relation.namedKey?.getD target.primaryKey
  /-- A to-many relation has its foreign key on the target. -/
  toMany : relation.kind = .toMany →
    join.direction = .right ∧ join.targetKey = relation.foreignKey ∧
      join.sourceKey = relation.namedKey?.getD source.entity.primaryKey

theorem Join.isAlong_of_along_eq_ok {source : Member} {relation : Relation} {target : Entity}
    {targetAlias : String} {join : Join}
    (h : Join.along source relation target targetAlias = .ok join) :
    join.IsAlong source relation target targetAlias := by
  obtain ⟨hs, ht, htable⟩ := aliases_of_along_eq_ok h
  cases hk : relation.kind with
  | toOne =>
    simp only [along, hk, Except.ok.injEq] at h
    subst h
    exact ⟨hs, ht, htable, by simp [hk, RelationKind.IsKnown], by simp, by simp [hk]⟩
  | toMany =>
    simp only [along, hk, Except.ok.injEq] at h
    subst h
    exact ⟨hs, ht, htable, by simp [hk, RelationKind.IsKnown], by simp [hk], by simp⟩
  | unknown kind => simp [along, hk] at h

theorem Join.exists_along_iff {source : Member} {relation : Relation} {target : Entity}
    {targetAlias : String} :
    (∃ join, Join.along source relation target targetAlias = .ok join) ↔
      relation.kind.IsKnown := by
  cases hk : relation.kind <;> simp [along, hk, RelationKind.IsKnown]

/-- The step from a member along one of its relations to the entity that the schema has under the
name of the target. -/
structure Step.IsAlong (schema : Schema) (source : Member) (relation : Relation) (step : Step) :
    Prop where
  declared : source.entity.relation? relation.name = some relation
  registered : schema.entities.get? relation.targetEntity = some step.member.entity
  path : step.member.path = source.path ++ [relation.name]
  join : step.join.IsAlong source relation step.member.entity step.member.tableAlias

/-- Where no path occurs twice, the members are found by their paths. -/
theorem Closure.member?_eq_some_iff {closure : Closure} {path : Path} {member : Member}
    (hpaths : (closure.members.map Member.path).Nodup) :
    closure.member? path = some member ↔ member ∈ closure.members ∧ member.path = path := by
  constructor
  · exact fun h => ⟨mem_of_member?_eq_some h, path_of_member?_eq_some h⟩
  · rintro ⟨hmem, hpath⟩
    cases hfound : closure.member? path with
    | none =>
      have hne := List.find?_eq_none.1 hfound member hmem
      exact absurd hpath (by simpa using hne)
    | some found =>
      have heq : found.path = member.path := (path_of_member?_eq_some hfound).trans hpath.symm
      rw [List.inj_on_of_nodup_map hpaths (mem_of_member?_eq_some hfound) hmem heq]

namespace Walk

/-! ## Growth -/

/-- The walk with one more step, whose alias is in use from now on. -/
def push (walk : Walk) (step : Step) : Walk :=
  { walk with
    steps := walk.steps ++ [step]
    pool := (walk.pool.allocate step.member.entity.tableName).2 }

/-- A step that the walk can grow by. -/
structure Admits (schema : Schema) (walk : Walk) (step : Step) : Prop where
  along : ∃ source ∈ walk.closure.members, ∃ relation, step.IsAlong schema source relation
  path_new : walk.closure.member? step.member.path = none
  tableAlias : step.member.tableAlias = (walk.pool.allocate step.member.entity.tableName).1

/-- The second walk has grown out of the first one. -/
inductive Reaches (schema : Schema) : Walk → Walk → Prop where
  | refl (walk : Walk) : Reaches schema walk walk
  | push {walk walk' : Walk} {step : Step} (h : Reaches schema walk walk')
      (ha : walk'.Admits schema step) : Reaches schema walk (walk'.push step)

/-- The paths of the attached members, in order. -/
def paths (walk : Walk) : List Path :=
  walk.steps.map fun step => step.member.path

variable {schema : Schema} {entity : Entity} {walk walk' walk'' : Walk} {step : Step}
  {source member next last : Member} {relation : Relation}

@[simp] theorem push_root (walk : Walk) (step : Step) : (walk.push step).root = walk.root := rfl

@[simp] theorem push_steps (walk : Walk) (step : Step) :
    (walk.push step).steps = walk.steps ++ [step] := rfl

theorem members_closure (walk : Walk) :
    walk.closure.members = walk.root :: walk.steps.map Step.member := rfl

@[simp] theorem members_push (walk : Walk) (step : Step) :
    (walk.push step).closure.members = walk.closure.members ++ [step.member] := by
  simp [members_closure]

theorem map_path_members (walk : Walk) :
    walk.closure.members.map Member.path = [] :: walk.paths := by
  simp [members_closure, paths, walk.root_path, Function.comp_def]

theorem root_mem_members (walk : Walk) : walk.root ∈ walk.closure.members :=
  List.mem_cons_self

theorem mem_paths_iff {path : Path} : path ∈ walk.paths ↔ ∃ step ∈ walk.steps,
    step.member.path = path := List.mem_map

theorem Reaches.trans (h : walk.Reaches schema walk') (h' : walk'.Reaches schema walk'') :
    walk.Reaches schema walk'' := by
  induction h' with
  | refl => exact h
  | push _ ha ih => exact ih.push ha

/-! ## The invariant -/

/-- What holds of every walk that started at the entity. -/
structure Sound (schema : Schema) (entity : Entity) (walk : Walk) : Prop where
  root : walk.root = ⟨entity.tableName, entity, []⟩
  /-- Each step follows a relation of the root or of a member attached before it. -/
  along : ∀ before step after, walk.steps = before ++ step :: after →
    ∃ source ∈ walk.root :: before.map Step.member, ∃ relation,
      step.IsAlong schema source relation
  paths_nodup : (walk.closure.members.map Member.path).Nodup
  aliases_nodup : (walk.closure.members.map Member.tableAlias).Nodup
  aliases_taken : ∀ member ∈ walk.closure.members, member.tableAlias ∈ walk.pool.taken
  leads : ∀ member ∈ walk.closure.members, schema.follow? entity member.path = some member.entity

theorem sound_start (schema : Schema) (entity : Entity) : (start entity).Sound schema entity where
  root := rfl
  along before step after h := by simp [start] at h
  paths_nodup := by simp [members_closure, start]
  aliases_nodup := by simp [members_closure, start]
  aliases_taken := by simp [members_closure, start]
  leads := by simp [members_closure, start]

namespace Sound

theorem push (h : walk.Sound schema entity) (ha : walk.Admits schema step) :
    (walk.push step).Sound schema entity where
  root := h.root
  along before other after heq := by
    -- Either the step is the new one, or it has the same steps before it as without the new one.
    rcases List.eq_nil_or_concat after with rfl | ⟨rest, final, rfl⟩
    · obtain ⟨rfl, heq⟩ := List.append_inj' heq rfl
      obtain rfl : step = other := by simpa using heq
      exact ha.along
    · rw [push_steps, List.concat_eq_append, ← List.cons_append, ← List.append_assoc] at heq
      exact h.along before other rest (List.append_inj' heq rfl).1
  paths_nodup := by
    rw [members_push, List.map_append, List.nodup_append]
    refine ⟨h.paths_nodup, by simp, ?_⟩
    rintro path hpath _ hnew rfl
    obtain ⟨member, hm, rfl⟩ := List.mem_map.1 hpath
    have hne := List.find?_eq_none.1 ha.path_new member hm
    exact hne (by simpa using hnew)
  aliases_nodup := by
    rw [members_push, List.map_append, List.nodup_append]
    refine ⟨h.aliases_nodup, by simp, ?_⟩
    rintro tableAlias halias _ hnew rfl
    obtain ⟨member, hm, rfl⟩ := List.mem_map.1 halias
    obtain heq : member.tableAlias = step.member.tableAlias := by simpa using hnew
    have hfree := walk.pool.allocate_fst_not_mem step.member.entity.tableName
    rw [← ha.tableAlias, ← heq] at hfree
    exact hfree (h.aliases_taken member hm)
  aliases_taken member hm := by
    rw [members_push, List.mem_append, List.mem_singleton] at hm
    rcases hm with hm | rfl
    · exact List.mem_cons_of_mem _ (h.aliases_taken member hm)
    · rw [ha.tableAlias, Walk.push, AliasPool.taken_allocate]
      exact List.mem_cons_self
  leads member hm := by
    rw [members_push, List.mem_append, List.mem_singleton] at hm
    rcases hm with hm | rfl
    · exact h.leads member hm
    · obtain ⟨source, hs, relation, halong⟩ := ha.along
      rw [halong.path, Schema.follow?_concat, h.leads source hs, Option.bind_some,
        Schema.step?_of_relation? halong.declared, halong.registered]

theorem of_reaches (h : walk.Sound schema entity) (hr : walk.Reaches schema walk') :
    walk'.Sound schema entity := by
  induction hr with
  | refl => exact h
  | push _ ha ih => exact ih.push ha

theorem entity_root (h : walk.Sound schema entity) : walk.root.entity = entity := by
  rw [h.root]

/-- A path leads to one member at most. -/
theorem eq_of_path_eq (h : walk.Sound schema entity) {m n : Member}
    (hm : m ∈ walk.closure.members) (hn : n ∈ walk.closure.members) (heq : m.path = n.path) :
    m = n :=
  List.inj_on_of_nodup_map h.paths_nodup hm hn heq

theorem nodup_paths (h : walk.Sound schema entity) : walk.paths.Nodup :=
  (List.nodup_cons.1 (map_path_members walk ▸ h.paths_nodup)).2

/-- A member found at the end of a relation was attached along that very relation. -/
theorem exists_isAlong_of_member? (h : walk.Sound schema entity)
    (hs : source ∈ walk.closure.members)
    (hd : source.entity.relation? relation.name = some relation)
    (hf : walk.closure.member? (source.path ++ [relation.name]) = some next) :
    ∃ step ∈ walk.steps, step.member = next ∧ step.IsAlong schema source relation := by
  have hnext := Closure.mem_of_member?_eq_some hf
  have hpath := Closure.path_of_member?_eq_some hf
  rw [members_closure, List.mem_cons, List.mem_map] at hnext
  rcases hnext with rfl | ⟨step, hstep, rfl⟩
  · simp [walk.root_path] at hpath
  · obtain ⟨before, after, hsplit⟩ := List.append_of_mem hstep
    obtain ⟨source', hs', relation', halong⟩ := h.along before step after hsplit
    -- The path determines the member that the step came from, and the name of the relation.
    obtain ⟨hsource, hname⟩ := List.append_inj' (halong.path.symm.trans hpath) rfl
    have hs' : source' ∈ walk.closure.members := by
      rw [members_closure, hsplit, List.map_append, ← List.cons_append]
      exact List.mem_append_left _ hs'
    obtain rfl := h.eq_of_path_eq hs' hs hsource
    obtain hname : relation'.name = relation.name := by simpa using hname
    have hd' := halong.declared
    rw [hname, hd, Option.some.injEq] at hd'
    exact ⟨step, hstep, rfl, hd' ▸ halong⟩

end Sound

/-! ## One relation -/

/-- A relation that no earlier chain followed adds one step. -/
theorem attach_spec (hs : source ∈ walk.closure.members)
    (hd : source.entity.relation? relation.name = some relation)
    (hf : walk.closure.member? (source.path ++ [relation.name]) = none)
    (h : walk.attach schema source relation = .ok (walk', next)) :
    ∃ step, step.IsAlong schema source relation ∧ walk.Admits schema step ∧
      walk' = walk.push step ∧ next = step.member := by
  simp only [attach, bind_eq_ok_iff, pure_eq_ok_iff, Prod.mk.injEq] at h
  obtain ⟨target, htarget, join, hjoin, rfl, rfl⟩ := h
  have halong : Step.IsAlong schema source relation
      ⟨⟨(walk.pool.allocate target.tableName).1, target, source.path ++ [relation.name]⟩, join⟩ :=
    ⟨hd, Schema.target_eq_ok_iff.1 htarget, rfl, Join.isAlong_of_along_eq_ok hjoin⟩
  exact ⟨_, halong, ⟨⟨source, hs, relation, halong⟩, hf, rfl⟩, rfl, rfl⟩

theorem exists_attach_iff :
    (∃ result, walk.attach schema source relation = .ok result) ↔
      relation.kind.IsKnown ∧
        ∃ target, schema.entities.get? relation.targetEntity = some target := by
  simp only [attach, bind_eq_ok_iff, pure_eq_ok_iff, Schema.target_eq_ok_iff]
  constructor
  · rintro ⟨result, target, htarget, join, hjoin, -⟩
    exact ⟨(Join.isAlong_of_along_eq_ok hjoin).known, target, htarget⟩
  · rintro ⟨hknown, target, htarget⟩
    obtain ⟨join, hjoin⟩ := Join.exists_along_iff.2 hknown
    exact ⟨_, target, htarget, join, hjoin, rfl⟩

/-- Whether or not it was followed before, a relation ends at the member that it leads to, and its
path counts among those of the walk from then on. -/
theorem advance_spec (hw : walk.Sound schema entity) (hs : source ∈ walk.closure.members)
    (hd : source.entity.relation? relation.name = some relation)
    (h : walk.advance schema source relation = .ok (walk', next)) :
    walk.Reaches schema walk' ∧
      (∃ step ∈ walk'.steps, step.member = next ∧ step.IsAlong schema source relation) ∧
      walk'.paths = (walk.paths ++ [source.path ++ [relation.name]]).eraseDups := by
  unfold advance at h
  split at h
  · next member hfound =>
    obtain ⟨rfl, rfl⟩ : walk = walk' ∧ member = next := by simpa using h
    obtain ⟨step, hstep, hmember, halong⟩ := hw.exists_isAlong_of_member? hs hd hfound
    have hpath : source.path ++ [relation.name] ∈ walk.paths :=
      mem_paths_iff.2 ⟨step, hstep, halong.path⟩
    refine ⟨.refl walk, ⟨step, hstep, hmember, halong⟩, ?_⟩
    rw [eraseDups_append_cons_of_mem hpath, List.append_nil, eraseDups_of_nodup hw.nodup_paths]
  · next hnew =>
    obtain ⟨step, halong, hadmits, rfl, rfl⟩ := attach_spec hs hd hnew h
    have hreaches : walk.Reaches schema (walk.push step) := (Reaches.refl walk).push hadmits
    have hpaths : (walk.push step).paths = walk.paths ++ [source.path ++ [relation.name]] := by
      simp [paths, halong.path]
    refine ⟨hreaches, ⟨step, by simp, rfl, halong⟩, ?_⟩
    rw [← hpaths, eraseDups_of_nodup (hw.of_reaches hreaches).nodup_paths]

theorem exists_advance_iff (hw : walk.Sound schema entity) (hs : source ∈ walk.closure.members)
    (hd : source.entity.relation? relation.name = some relation) :
    (∃ result, walk.advance schema source relation = .ok result) ↔
      relation.kind.IsKnown ∧
        ∃ target, schema.entities.get? relation.targetEntity = some target := by
  unfold advance
  split
  · next member hfound =>
    obtain ⟨step, -, -, halong⟩ := hw.exists_isAlong_of_member? hs hd hfound
    exact ⟨fun _ => ⟨halong.join.known, _, halong.registered⟩, fun _ => ⟨_, rfl⟩⟩
  · exact exists_attach_iff

/-! ## One chain -/

theorem follow_cons_eq_ok_iff {name : String} {names : List String} {result : Walk × Member} :
    walk.follow schema source (name :: names) = .ok result ↔
      (source.entity.relation? name = none ∧ result = (walk, source)) ∨
        ∃ relation walk' next, source.entity.relation? name = some relation ∧
          walk.advance schema source relation = .ok (walk', next) ∧
          walk'.follow schema next names = .ok result := by
  rw [follow]
  cases source.entity.relation? name with
  | none => simp [eq_comm]
  | some relation => simp [bind_eq_ok_iff]

/-- A chain leads along its resolved part, and the paths along that part count among those of the
walk from then on. -/
theorem follow_spec {names : List String} (hw : walk.Sound schema entity)
    (hs : source ∈ walk.closure.members)
    (h : walk.follow schema source names = .ok (walk', last)) :
    walk.Reaches schema walk' ∧ last ∈ walk'.closure.members ∧
      last.path = source.path ++ schema.resolved source.entity names ∧
      walk'.paths = (walk.paths ++ (Path.prefixes (schema.resolved source.entity names)).map
        (source.path ++ ·)).eraseDups := by
  induction names generalizing walk source with
  | nil =>
    obtain ⟨rfl, rfl⟩ : walk = walk' ∧ source = last := by simpa [follow] using h
    refine ⟨.refl walk, hs, by simp [Schema.resolved_nil], ?_⟩
    simp [Schema.resolved_nil, eraseDups_of_nodup hw.nodup_paths]
  | cons name names ih =>
    rcases follow_cons_eq_ok_iff.1 h with ⟨hnone, heq⟩ | ⟨relation, middle, next, hd, hadv, hrest⟩
    · obtain ⟨rfl, rfl⟩ := Prod.mk.inj heq
      rw [Schema.resolved_cons_of_step?_eq_none (Schema.step?_eq_none_of_relation? hnone)]
      exact ⟨.refl _, hs, by simp, by simp [eraseDups_of_nodup hw.nodup_paths]⟩
    · obtain rfl := Entity.name_of_relation?_eq_some hd
      obtain ⟨hreach, ⟨step, hstep, rfl, halong⟩, hpaths⟩ := advance_spec hw hs hd hadv
      have hnext : step.member ∈ middle.closure.members :=
        List.mem_cons_of_mem _ (List.mem_map_of_mem hstep)
      obtain ⟨hreach', hlast, hlastPath, hpaths'⟩ := ih (hw.of_reaches hreach) hnext hrest
      have hstep? : schema.step? source.entity relation.name = some step.member.entity := by
        rw [Schema.step?_of_relation? hd, halong.registered]
      have hcons := Schema.resolved_cons_of_step? names hstep?
      refine ⟨hreach.trans hreach', hlast, ?_, ?_⟩
      · rw [hlastPath, halong.path, hcons, List.append_assoc, List.singleton_append]
      · rw [hpaths', hpaths, eraseDups_eraseDups_append, hcons, halong.path, Path.prefixes_cons]
        simp [Function.comp_def]

/-- A chain can be followed exactly if each of its relations can be joined. -/
theorem exists_follow_iff {names : List String} (hw : walk.Sound schema entity)
    (hs : source ∈ walk.closure.members) :
    (∃ result, walk.follow schema source names = .ok result) ↔
      schema.IsPassable source.entity names := by
  induction names generalizing walk source with
  | nil => exact ⟨fun _ => trivial, fun _ => ⟨_, rfl⟩⟩
  | cons name names ih =>
    cases hd : source.entity.relation? name with
    | none =>
      refine ⟨fun _ relation h => ?_, fun _ => ⟨_, follow_cons_eq_ok_iff.2 (.inl ⟨hd, rfl⟩)⟩⟩
      simp [hd] at h
    | some relation =>
      obtain rfl := Entity.name_of_relation?_eq_some hd
      have hpassable : schema.IsPassable source.entity (relation.name :: names) ↔
          relation.kind.IsKnown ∧ ∃ next, schema.entities.get? relation.targetEntity = some next ∧
            schema.IsPassable next names := by
        simp [Schema.IsPassable, hd]
      rw [hpassable]
      -- Where one relation leads to is also where the rest of the chain is followed from.
      have hrest : ∀ {middle next}, walk.advance schema source relation = .ok (middle, next) →
          schema.entities.get? relation.targetEntity = some next.entity ∧
            ((∃ result, middle.follow schema next names = .ok result) ↔
              schema.IsPassable next.entity names) := by
        intro middle next hadv
        obtain ⟨hreach, ⟨step, hstep, rfl, halong⟩, -⟩ := advance_spec hw hs hd hadv
        have hnext : step.member ∈ middle.closure.members :=
          List.mem_cons_of_mem _ (List.mem_map_of_mem hstep)
        exact ⟨halong.registered, ih (hw.of_reaches hreach) hnext⟩
      constructor
      · rintro ⟨result, h⟩
        rcases follow_cons_eq_ok_iff.1 h with ⟨hnone, -⟩ | ⟨other, middle, next, hd', hadv, hfollow⟩
        · simp [hd] at hnone
        · obtain rfl : relation = other := by simpa [hd] using hd'
          obtain ⟨htarget, hiff⟩ := hrest hadv
          exact ⟨((exists_advance_iff hw hs hd).1 ⟨_, hadv⟩).1, next.entity, htarget,
            hiff.1 ⟨_, hfollow⟩⟩
      · rintro ⟨hknown, target, htarget, hpass⟩
        obtain ⟨⟨middle, next⟩, hadv⟩ := (exists_advance_iff hw hs hd).2 ⟨hknown, target, htarget⟩
        obtain ⟨htarget', hiff⟩ := hrest hadv
        obtain rfl : target = next.entity := by simpa [htarget] using htarget'
        obtain ⟨result, hfollow⟩ := hiff.2 hpass
        exact ⟨result, follow_cons_eq_ok_iff.2 (.inr ⟨relation, middle, next, hd, hadv, hfollow⟩)⟩

/-! ## All chains -/

theorem followAll_cons_eq_ok_iff {chain : List String} {chains : List (List String)}
    {reached : List Path} :
    walk.followAll schema (chain :: chains) = .ok (walk', reached) ↔
      ∃ middle last others, walk.follow schema walk.root chain = .ok (middle, last) ∧
        middle.followAll schema chains = .ok (walk', others) ∧
        reached = if last.path = [] then others else last.path :: others := by
  simp only [followAll, bind_eq_ok_iff, pure_eq_ok_iff, Prod.exists, Prod.mk.injEq]
  constructor
  · rintro ⟨middle, last, hfollow, walk', others, hrest, rfl, rfl⟩
    exact ⟨middle, last, others, hfollow, hrest, rfl⟩
  · rintro ⟨middle, last, others, hfollow, hrest, rfl⟩
    exact ⟨middle, last, hfollow, walk', others, hrest, rfl, rfl⟩

/-- All chains together lead along their resolved parts, each as if it were alone. -/
theorem followAll_spec {chains : List (List String)} {reached : List Path}
    (hw : walk.Sound schema entity)
    (h : walk.followAll schema chains = .ok (walk', reached)) :
    walk.Reaches schema walk' ∧
      walk'.paths = (walk.paths ++
        chains.flatMap fun chain => Path.prefixes (schema.resolved entity chain)).eraseDups ∧
      reached = (chains.map (schema.resolved entity)).filter (· ≠ []) := by
  induction chains generalizing walk reached with
  | nil =>
    obtain ⟨rfl, rfl⟩ : walk = walk' ∧ [] = reached := by simpa [followAll] using h
    exact ⟨.refl walk, by simp [eraseDups_of_nodup hw.nodup_paths], rfl⟩
  | cons chain chains ih =>
    obtain ⟨middle, last, others, hfollow, hrest, rfl⟩ := followAll_cons_eq_ok_iff.1 h
    obtain ⟨hreach, -, hlast, hpaths⟩ := follow_spec hw walk.root_mem_members hfollow
    obtain ⟨hreach', hpaths', rfl⟩ := ih (hw.of_reaches hreach) hrest
    rw [hw.entity_root, walk.root_path, List.nil_append] at hlast
    rw [hw.entity_root, walk.root_path] at hpaths
    refine ⟨hreach.trans hreach', ?_, ?_⟩
    · rw [hpaths', hpaths, eraseDups_eraseDups_append]
      simp
    · rw [hlast, List.map_cons]
      by_cases hnil : schema.resolved entity chain = [] <;> simp [hnil]

/-- The chains can be followed exactly if each relation that they get to can be joined. Their order
does not matter to it. -/
theorem exists_followAll_iff {chains : List (List String)} (hw : walk.Sound schema entity) :
    (∃ result, walk.followAll schema chains = .ok result) ↔
      ∀ chain ∈ chains, schema.IsPassable entity chain := by
  induction chains generalizing walk with
  | nil => exact ⟨by simp, fun _ => ⟨_, rfl⟩⟩
  | cons chain chains ih =>
    have hfirst : (∃ result, walk.follow schema walk.root chain = .ok result) ↔
        schema.IsPassable entity chain := by
      rw [exists_follow_iff hw walk.root_mem_members, hw.entity_root]
    rw [List.forall_mem_cons, ← hfirst]
    constructor
    · rintro ⟨⟨walk', reached⟩, h⟩
      obtain ⟨middle, last, others, hfollow, hrest, -⟩ := followAll_cons_eq_ok_iff.1 h
      have hreach := (follow_spec hw walk.root_mem_members hfollow).1
      exact ⟨⟨_, hfollow⟩, (ih (hw.of_reaches hreach)).1 ⟨_, hrest⟩⟩
    · rintro ⟨⟨⟨middle, last⟩, hfollow⟩, hpass⟩
      have hreach := (follow_spec hw walk.root_mem_members hfollow).1
      obtain ⟨⟨walk', others⟩, hrest⟩ := (ih (hw.of_reaches hreach)).2 hpass
      exact ⟨_, followAll_cons_eq_ok_iff.2 ⟨middle, last, others, hfollow, hrest, rfl⟩⟩

end Walk

end RequestPlan
