import Mathlib.Data.List.Basic
import RequestPlan.Proofs.JoinGraph

/-!
# Numbered aliases

The members on one table are numbered in join order, as long as no table is called like a later
member on another one: a numbered alias then says which table and which number it is made of, so
that the next number of a table is always free.

* `AliasPool.eq_of_candidate_eq`: numbered aliases are read back;
* `TellsApart`: no table is called like a numbered alias;
* `Walk.Numbers`: the numbering as an invariant of walks;
* `JoinGraph.numbersMembers_of_build`: the aliases of every graph that was built.
-/

namespace RequestPlan

/-! ## Reading an alias back -/

namespace AliasPool

/-- The digits behind the last underscore are the number, and before it stands the table. -/
theorem eq_of_candidate_eq {table other : String} {j k : ℕ} (hj : j ≠ 0) (hk : k ≠ 0)
    (h : candidate table j = candidate other k) : table = other ∧ j = k := by
  have hlist := congrArg String.toList h
  rw [toList_candidate table hj, toList_candidate other hk] at hlist
  have htable : table = other := by
    -- A longer table on one side would have an underscore among the digits of the other side.
    have hcut : ∀ {front digits digits' : List Char} {n : ℕ}, digits = Nat.toDigits 10 n →
        '_' :: digits = front ++ '_' :: digits' → front = [] := by
      rintro front digits digits' n rfl hfront
      cases front with
      | nil => rfl
      | cons c front =>
        have hmem : '_' ∈ Nat.toDigits 10 n := by
          rw [(List.cons.inj hfront).2]
          simp
        exact absurd hmem Nat.underscore_not_in_toDigits
    rw [← String.toList_inj]
    rcases List.append_eq_append_iff.1 hlist with ⟨front, heq, hdigits⟩ | ⟨front, heq, hdigits⟩
    · rw [heq, hcut rfl hdigits, List.append_nil]
    · rw [heq, hcut rfl hdigits, List.append_nil]
  subst htable
  exact ⟨rfl, candidate_inj.1 h⟩

end AliasPool

/-- No table of a member is called like the table of a member with a number behind it. -/
def TellsApart (members : List Member) : Prop :=
  ∀ member ∈ members, ∀ other ∈ members, ∀ k : ℕ, 0 < k →
    other.entity.tableName ≠ member.entity.tableName ++ "_" ++ toString k

/-- The members on a table. -/
def onTable (members : List Member) (table : String) : List Member :=
  members.filter fun member => member.entity.tableName = table

/-- The first member on each table is called like the table, and the others like the table with
their numbers behind it, counted from zero and without gaps. -/
def NumbersMembers (members : List Member) : Prop :=
  ∀ table, (onTable members table).map Member.tableAlias =
    (List.range (onTable members table).length).map fun n =>
      if n = 0 then table else table ++ "_" ++ toString n

variable {members : List Member} {member other : Member} {table : String}

theorem numbersMembers_iff : NumbersMembers members ↔ ∀ table,
    (onTable members table).map Member.tableAlias =
      (List.range (onTable members table).length).map (AliasPool.candidate table) := Iff.rfl

theorem TellsApart.of_isPrefix {more : List Member} (h : TellsApart more)
    (hmembers : members <+: more) : TellsApart members :=
  fun member hm other ho => h member (hmembers.subset hm) other (hmembers.subset ho)

/-- Tables are told apart if none of their names ends in a digit. -/
theorem tellsApart_of_getLast? (h : ∀ member ∈ members,
    member.entity.tableName.toList.getLast?.any Char.isDigit = false) : TellsApart members := by
  intro member _ other ho k hk heq
  have hlist : other.entity.tableName.toList =
      member.entity.tableName.toList ++ '_' :: Nat.toDigits 10 k := by
    rw [← AliasPool.toList_candidate _ hk.ne', heq, AliasPool.candidate, if_neg hk.ne']
  have hne : Nat.toDigits 10 k ≠ [] := Nat.toDigits_ne_nil
  have hlast : other.entity.tableName.toList.getLast? = some ((Nat.toDigits 10 k).getLast hne) := by
    rw [hlist, List.getLast?_append_cons, List.getLast?_cons, List.getLast?_eq_some_getLast hne]
    rfl
  have hdigit : ((Nat.toDigits 10 k).getLast hne).isDigit = true :=
    Nat.isDigit_of_mem_toDigits (by decide) (by decide) (List.getLast_mem hne)
  have hno := h other ho
  rw [hlast, Option.any_some, hdigit] at hno
  cases hno

/-- Where tables are told apart, so are their candidates. -/
theorem TellsApart.eq_of_candidate_eq (h : TellsApart members) (hm : member ∈ members)
    (ho : other ∈ members) {j k : ℕ}
    (heq : AliasPool.candidate member.entity.tableName j =
      AliasPool.candidate other.entity.tableName k) :
    member.entity.tableName = other.entity.tableName ∧ j = k := by
  have hnumbered : ∀ (table : String) {n : ℕ}, n ≠ 0 →
      AliasPool.candidate table n = table ++ "_" ++ toString n := fun table n hn => if_neg hn
  by_cases hj : j = 0 <;> by_cases hk : k = 0
  · subst hj hk
    exact ⟨heq, rfl⟩
  · rw [hj, AliasPool.candidate_zero, hnumbered _ hk] at heq
    exact absurd heq (h other ho member hm k (Nat.pos_of_ne_zero hk))
  · rw [hk, AliasPool.candidate_zero, hnumbered _ hj] at heq
    exact absurd heq.symm (h member hm other ho j (Nat.pos_of_ne_zero hj))
  · exact AliasPool.eq_of_candidate_eq hj hk heq

theorem onTable_concat (members : List Member) (member : Member) (table : String) :
    onTable (members ++ [member]) table =
      onTable members table ++ if member.entity.tableName = table then [member] else [] := by
  rw [onTable, List.filter_append, List.filter_singleton]
  simp [onTable]

/-- A member has a number below that of the next member on its table. -/
theorem NumbersMembers.exists_number (h : NumbersMembers members) (hm : member ∈ members) :
    ∃ k < (onTable members member.entity.tableName).length,
      member.tableAlias = AliasPool.candidate member.entity.tableName k := by
  have hmem : member ∈ onTable members member.entity.tableName := by simp [onTable, hm]
  have halias := List.mem_map_of_mem (f := Member.tableAlias) hmem
  rw [numbersMembers_iff.1 h, List.mem_map] at halias
  obtain ⟨k, hk, halias⟩ := halias
  exact ⟨k, List.mem_range.1 hk, halias.symm⟩

namespace Walk

variable {schema : Schema} {walk walk' : Walk} {step : Step}

/-- The members are numbered, and the pool knows the next numbers. -/
structure Numbers (walk : Walk) : Prop where
  count : ∀ table, walk.pool.count table = (onTable walk.closure.members table).length
  taken : ∀ name ∈ walk.pool.taken, ∃ member ∈ walk.closure.members, member.tableAlias = name
  members : NumbersMembers walk.closure.members

theorem numbers_start (entity : Entity) : (start entity).Numbers where
  count table := by
    by_cases htable : entity.tableName = table <;>
      simp [start, members_closure, onTable, AliasPool.count, KeyedList.get?_ofList, htable]
  taken := by simp [start, members_closure]
  members := by
    refine numbersMembers_iff.2 fun table => ?_
    by_cases htable : entity.tableName = table <;>
      simp [start, members_closure, onTable, AliasPool.candidate_zero, htable]

/-- A new member takes the next number of its table, which is free. -/
theorem Numbers.suffix_eq (h : walk.Numbers)
    (hapart : TellsApart (walk.push step).closure.members) :
    walk.pool.suffix step.member.entity.tableName =
      (onTable walk.closure.members step.member.entity.tableName).length := by
  rw [← h.count]
  refine AliasPool.suffix_eq_count fun htaken => ?_
  obtain ⟨member, hm, halias⟩ := h.taken _ htaken
  obtain ⟨k, hk, hnumber⟩ := h.members.exists_number hm
  have hmember : member ∈ (walk.push step).closure.members := by simp [hm]
  have hstep : step.member ∈ (walk.push step).closure.members := by simp
  obtain ⟨htable, rfl⟩ := hapart.eq_of_candidate_eq hmember hstep (hnumber.symm.trans halias)
  rw [h.count, htable] at hk
  exact absurd hk (lt_irrefl _)

theorem Numbers.push (h : walk.Numbers) (ha : walk.Admits schema step)
    (hapart : TellsApart (walk.push step).closure.members) : (walk.push step).Numbers where
  count table := by
    rw [members_push, onTable_concat, Walk.push, AliasPool.count_allocate, h.suffix_eq hapart]
    by_cases htable : table = step.member.entity.tableName
    · simp [htable]
    · simp [htable, Ne.symm htable, h.count]
  taken name hname := by
    rw [Walk.push, AliasPool.taken_allocate, ← ha.tableAlias, List.mem_cons] at hname
    rw [members_push]
    rcases hname with rfl | hname
    · exact ⟨step.member, by simp, rfl⟩
    · obtain ⟨member, hm, halias⟩ := h.taken name hname
      exact ⟨member, List.mem_append_left _ hm, halias⟩
  members := by
    refine numbersMembers_iff.2 fun table => ?_
    rw [members_push, onTable_concat]
    by_cases htable : step.member.entity.tableName = table
    · have halias : step.member.tableAlias =
          AliasPool.candidate table (onTable walk.closure.members table).length := by
        rw [ha.tableAlias, AliasPool.allocate, h.suffix_eq hapart, htable]
      rw [if_pos htable, List.map_append, numbersMembers_iff.1 h.members, List.length_append,
        List.length_singleton, List.range_succ, List.map_append, List.map_singleton,
        List.map_singleton, halias]
    · rw [if_neg htable, List.append_nil, numbersMembers_iff.1 h.members]

/-- A walk numbers its members if in the end all tables are told apart. -/
theorem Numbers.of_reaches (h : walk.Numbers) (hr : walk.Reaches schema walk')
    (hapart : TellsApart walk'.closure.members) : walk'.Numbers := by
  induction hr with
  | refl => exact h
  | push _ ha ih =>
    refine (ih (hapart.of_isPrefix ?_)).push ha hapart
    rw [members_push]
    exact List.prefix_append _ _

end Walk

namespace JoinGraph

variable {schema : Schema} {root : Entity} {requested : Option String} {graph : JoinGraph}

/-- **The members on a table are numbered without gaps**, the first one without a number, if no
table is called like another one with a number behind it. -/
theorem numbersMembers_of_build (h : build schema root requested = .ok graph)
    (hapart : TellsApart graph.closure.members) : NumbersMembers graph.closure.members := by
  obtain ⟨walk, reached, hall, rfl⟩ := build_eq_ok_iff.1 h
  have hreaches := (Walk.followAll_spec (Walk.sound_start schema root) hall).1
  exact ((Walk.numbers_start root).of_reaches hreaches hapart).members

/-- Four occurrences of one table, and another table among them. -/
theorem numbersMembers_forest :
    build Forest.schema Forest.node (some Forest.chains) = .ok Forest.graph ∧
      TellsApart Forest.graph.closure.members ∧ NumbersMembers Forest.graph.closure.members := by
  have hapart : TellsApart Forest.graph.closure.members :=
    tellsApart_of_getLast? (by decide +kernel)
  exact ⟨Forest.build_chains, hapart, numbersMembers_of_build Forest.build_chains hapart⟩

end JoinGraph

end RequestPlan
