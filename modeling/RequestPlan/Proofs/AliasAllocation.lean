import Mathlib.Order.Bounds.Basic
import RequestPlan.Proofs.JoinGraph

/-!
# Aliases one after the other

The alias of a table is searched for from the count of the table on, and candidates that are in use
are passed over. There is always an end to it, as a table has more candidates than there are aliases
in use. Whatever the tables, aliases that are allocated one after the other never meet, although the
numbered name of one table may be the plain name of another.

* `AliasPool.searchWithin`: the search for a free candidate, cut off after so many tests;
* `AliasPool.searchWithin_eq_some_iff`: it finds the least number whose candidate is free;
* `AliasPool.TakesFirstFree`: what one allocation does;
* `AliasPool.allocateAll`, `AliasPool.KeepsApart`: allocations in turn, and what becomes of them;
* `AliasPool.allocatesInTurn`: both hold of every pool and all tables;
* `JoinGraph.allocateAll_of_build`: the aliases of a graph are allocated in turn.
-/

namespace RequestPlan

namespace AliasPool

variable {pool : AliasPool} {taken tables : List String} {table : String} {start tests k : ℕ}
  {entry : String × String}

/-! ## The search for a free candidate -/

/-- The search for a free candidate of the table, from a number on, with so many tests at most. -/
def searchWithin (taken : List String) (table : String) : ℕ → ℕ → Option ℕ
  | 0, _ => none
  | tests + 1, k =>
    if candidate table k ∈ taken then searchWithin taken table tests (k + 1) else some k

/-- The numbers from the given one on whose candidates are free. -/
def freeFrom (taken : List String) (table : String) (start : ℕ) : Set ℕ :=
  {k | start ≤ k ∧ candidate table k ∉ taken}

/-- A taken candidate can be passed over. -/
theorem freeFrom_succ (h : candidate table start ∈ taken) :
    freeFrom taken table (start + 1) = freeFrom taken table start := by
  ext k
  refine and_congr_left fun hfree => ⟨Nat.le_of_succ_le, fun hle => ?_⟩
  refine Nat.lt_of_le_of_ne hle ?_
  rintro rfl
  exact hfree h

/-- The search finds the least number whose candidate is free, if there are enough tests. -/
theorem searchWithin_eq_some_iff :
    searchWithin taken table tests start = some k ↔
      IsLeast (freeFrom taken table start) k ∧ k < start + tests := by
  induction tests generalizing start with
  | zero =>
    constructor
    · intro h
      cases h
    · rintro ⟨hleast, hlt⟩
      exact absurd hleast.1.1 (Nat.not_le_of_lt hlt)
  | succ tests ih =>
    rw [searchWithin]
    split
    · next htaken => rw [ih, freeFrom_succ htaken, Nat.add_right_comm, Nat.add_assoc]
    · next hfree =>
      have hleast : IsLeast (freeFrom taken table start) start :=
        ⟨⟨Nat.le_refl _, hfree⟩, fun _ h => h.1⟩
      rw [Option.some.injEq]
      constructor
      · rintro rfl
        exact ⟨hleast, by omega⟩
      · exact fun h => hleast.unique h.1

theorem isLeast_suffix (pool : AliasPool) (table : String) :
    IsLeast (freeFrom pool.taken table (pool.count table)) (pool.suffix table) := by
  refine ⟨⟨count_le_suffix pool table, candidate_suffix_not_mem pool table⟩, fun k hk => ?_⟩
  refine Nat.le_of_not_lt fun hlt => hk.2 ?_
  exact candidate_mem_of_lt_suffix hk.1 hlt

/-- No more candidates are passed over than there are aliases in use. -/
theorem suffix_le_count_add (pool : AliasPool) (table : String) :
    pool.suffix table ≤ pool.count table + pool.taken.length := by
  have hmem := (List.find?_range'_eq_some.1 (find?_range'_suffix pool table)).2.1
  have hlt := (List.mem_range'_1.1 hmem).2
  omega

/-! ## One allocation -/

/-- An allocation gives the table its first free candidate, counts it, and changes nothing else. -/
structure TakesFirstFree (pool : AliasPool) (table : String) : Prop where
  /-- One test more than there are aliases in use is enough. -/
  ends : ∀ tests, pool.taken.length < tests →
    searchWithin pool.taken table tests (pool.count table) = some (pool.suffix table)
  least : IsLeast (freeFrom pool.taken table (pool.count table)) (pool.suffix table)
  name : (pool.allocate table).1 = candidate table (pool.suffix table)
  count : (pool.allocate table).2.counts.get? table = some (pool.suffix table + 1)
  others : ∀ other, other ≠ table →
    (pool.allocate table).2.counts.get? other = pool.counts.get? other
  taken : ∀ name, name ∈ (pool.allocate table).2.taken ↔
    name = (pool.allocate table).1 ∨ name ∈ pool.taken

theorem takesFirstFree (pool : AliasPool) (table : String) : pool.TakesFirstFree table where
  ends tests htests := by
    have hbound := suffix_le_count_add pool table
    exact searchWithin_eq_some_iff.2 ⟨isLeast_suffix pool table, by omega⟩
  least := isLeast_suffix pool table
  name := rfl
  count := by rw [allocate, KeyedList.get?_insert, if_pos rfl]
  others other hother := by rw [allocate, KeyedList.get?_insert, if_neg hother]
  taken name := by rw [taken_allocate, List.mem_cons]

/-! ## Allocations in turn -/

/-- The aliases that the tables get one after the other, each beside its table. -/
def allocateAll (pool : AliasPool) : List String → List (String × String)
  | [] => []
  | table :: tables =>
    (table, (pool.allocate table).1) :: (pool.allocate table).2.allocateAll tables

/-- The pool in which all tables have got their aliases. -/
def afterAll (pool : AliasPool) (tables : List String) : AliasPool :=
  tables.foldl (fun pool table => (pool.allocate table).2) pool

theorem allocateAll_concat (pool : AliasPool) (tables : List String) (table : String) :
    pool.allocateAll (tables ++ [table]) =
      pool.allocateAll tables ++ [(table, ((pool.afterAll tables).allocate table).1)] := by
  induction tables generalizing pool with
  | nil => rfl
  | cons first tables ih =>
    rw [List.cons_append, allocateAll, ih]
    rfl

theorem afterAll_concat (pool : AliasPool) (tables : List String) (table : String) :
    pool.afterAll (tables ++ [table]) = ((pool.afterAll tables).allocate table).2 :=
  List.foldl_concat ..

/-- The count of a table never falls. -/
theorem count_le_count_allocate (pool : AliasPool) (table other : String) :
    pool.count other ≤ (pool.allocate table).2.count other := by
  rw [count_allocate]
  split
  · next heq =>
    rw [heq]
    exact Nat.le_succ_of_le (count_le_suffix pool table)
  · exact Nat.le_refl _

/-- An alias is a candidate of its table, with a number from the count of the table on. -/
theorem exists_number_of_mem_allocateAll (h : entry ∈ pool.allocateAll tables) :
    ∃ k, pool.count entry.1 ≤ k ∧ entry.2 = candidate entry.1 k := by
  induction tables generalizing pool with
  | nil => exact absurd h List.not_mem_nil
  | cons table tables ih =>
    rcases List.mem_cons.1 h with rfl | h
    · exact ⟨pool.suffix table, count_le_suffix pool table, rfl⟩
    · obtain ⟨k, hk, hname⟩ := ih h
      exact ⟨k, Nat.le_trans (count_le_count_allocate pool table entry.1) hk, hname⟩

/-- An alias that is in use is not allocated again. -/
theorem not_mem_taken_of_mem_allocateAll (h : entry ∈ pool.allocateAll tables) :
    entry.2 ∉ pool.taken := by
  induction tables generalizing pool with
  | nil => exact absurd h List.not_mem_nil
  | cons table tables ih =>
    rcases List.mem_cons.1 h with rfl | h
    · exact allocate_fst_not_mem pool table
    · exact fun hmem => ih h (List.mem_cons_of_mem _ hmem)

/-- Of two aliases of one table, the later one has the greater number. -/
def Rises (earlier later : String × String) : Prop :=
  earlier.1 = later.1 → ∀ j k, earlier.2 = candidate earlier.1 j → later.2 = candidate later.1 k →
    j < k

/-- Allocations in turn are kept apart from each other and from the aliases that were in use. -/
structure KeepsApart (pool : AliasPool) (tables : List String) : Prop where
  each : (pool.allocateAll tables).map Prod.fst = tables
  numbered : ∀ entry ∈ pool.allocateAll tables,
    ∃ k, pool.count entry.1 ≤ k ∧ entry.2 = candidate entry.1 k
  fresh : ∀ entry ∈ pool.allocateAll tables, entry.2 ∉ pool.taken
  distinct : ((pool.allocateAll tables).map Prod.snd).Nodup
  rising : (pool.allocateAll tables).Pairwise Rises
  taken : ∀ name, name ∈ (pool.afterAll tables).taken ↔
    name ∈ (pool.allocateAll tables).map Prod.snd ∨ name ∈ pool.taken

/-- One more allocation in front is kept apart from the others: its alias is in use by then, and the
count of its table is beyond its number. -/
theorem KeepsApart.cons (h : (pool.allocate table).2.KeepsApart tables) :
    pool.KeepsApart (table :: tables) where
  each := congrArg (table :: ·) h.each
  numbered _ := exists_number_of_mem_allocateAll
  fresh _ := not_mem_taken_of_mem_allocateAll
  distinct := by
    refine List.nodup_cons.2 ⟨fun hmem => ?_, h.distinct⟩
    obtain ⟨entry, hentry, heq⟩ := List.mem_map.1 hmem
    refine h.fresh entry hentry ?_
    rw [heq, taken_allocate]
    exact List.mem_cons_self
  rising := by
    refine List.pairwise_cons.2 ⟨fun later hlater htable j k hj hk => ?_, h.rising⟩
    obtain ⟨l, hl, hname⟩ := h.numbered later hlater
    obtain rfl : k = l := candidate_inj.1 (hk.symm.trans hname)
    obtain rfl : pool.suffix table = j := candidate_inj.1 hj
    rw [← htable, count_allocate, if_pos rfl] at hl
    exact hl
  taken name := by
    have hrest : name ∈ (pool.afterAll (table :: tables)).taken ↔ _ := h.taken name
    rw [hrest, taken_allocate, allocateAll, List.map_cons, List.mem_cons, List.mem_cons,
      or_left_comm, or_assoc]

theorem keepsApart (pool : AliasPool) (tables : List String) : pool.KeepsApart tables := by
  induction tables generalizing pool with
  | nil =>
    have hnone : pool.allocateAll [] = [] := rfl
    exact ⟨rfl, by simp [hnone], by simp [hnone], .nil, .nil, by simp [hnone, afterAll]⟩
  | cons table tables ih => exact (ih _).cons

/-- **An allocation always ends with the first free candidate, and allocations in turn never meet**,
whatever the counts and the aliases in use are at the start. -/
theorem allocatesInTurn (pool : AliasPool) (tables : List String) :
    (∀ table, pool.TakesFirstFree table) ∧ pool.KeepsApart tables :=
  ⟨pool.takesFirstFree, pool.keepsApart tables⟩

/-- The second table is called like a numbered alias of the first one, and a name that is in use at
the start looks like one. -/
example : (AliasPool.allocateAll ⟨.empty, ["node_2"]⟩
    ["node", "node_1", "node_1", "node", "node"]).map Prod.snd =
      ["node", "node_1", "node_1_1", "node_3", "node_4"] := by
  decide +kernel

end AliasPool

/-! ## The aliases of a graph -/

/-- The tables of the attached members, each with the alias of the member. -/
def Walk.allocations (walk : Walk) : List (String × String) :=
  walk.steps.map fun step => (step.member.entity.tableName, step.member.tableAlias)

/-- A walk allocates the aliases of its steps in turn. -/
theorem Walk.allocateAll_of_reaches {schema : Schema} {walk walk' : Walk} (hstart : walk.steps = [])
    (h : walk.Reaches schema walk') :
    walk.pool.allocateAll (walk'.allocations.map Prod.fst) = walk'.allocations ∧
      walk.pool.afterAll (walk'.allocations.map Prod.fst) = walk'.pool := by
  induction h with
  | refl => simp [Walk.allocations, hstart, AliasPool.allocateAll, AliasPool.afterAll]
  | @push walk' step h ha ih =>
    obtain ⟨hall, hafter⟩ := ih
    have hnamed : (walk'.push step).allocations =
        walk'.allocations ++ [(step.member.entity.tableName, step.member.tableAlias)] := by
      simp [Walk.allocations]
    rw [hnamed, List.map_append, List.map_singleton, AliasPool.allocateAll_concat,
      AliasPool.afterAll_concat, hall, hafter, ha.tableAlias]
    exact ⟨rfl, rfl⟩

/-- The joined members have the aliases that their tables are given in turn after the root. -/
theorem JoinGraph.allocateAll_of_build {schema : Schema} {root : Entity}
    {requested : Option String} {graph : JoinGraph}
    (h : build schema root requested = .ok graph) :
    (Walk.start root).pool.allocateAll
        (graph.closure.joined.map fun member => member.entity.tableName) =
      graph.closure.joined.map fun member => (member.entity.tableName, member.tableAlias) := by
  obtain ⟨walk, reached, hall, rfl⟩ := build_eq_ok_iff.1 h
  have hreaches := (Walk.followAll_spec (Walk.sound_start schema root) hall).1
  have hwalk := (Walk.allocateAll_of_reaches rfl hreaches).1
  simpa [Walk.allocations, ofWalk, Walk.closure, Function.comp_def] using hwalk

end RequestPlan
