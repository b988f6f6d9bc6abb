import RequestPlan.KeyedList

/-!
# Table aliases

Every occurrence of a table in a plan has an alias of its own. The first one keeps the name of the
table, later ones have a number after it, and a name that is already in use is passed over.

* `AliasPool`: how often each table occurred, and the aliases in use;
* `AliasPool.candidate`: the names an occurrence may have;
* `AliasPool.allocate`: the next alias of a table.

`candidate_suffix_not_mem` says that the chosen alias is free, `candidate_mem_of_lt_suffix` that no
earlier candidate is.
-/

namespace RequestPlan

/-- The occurrences of each table so far, and the aliases in use. -/
structure AliasPool where
  counts : KeyedList Nat
  taken : List String
  deriving DecidableEq

namespace AliasPool

/-- The name of the `k`-th occurrence of a table, counted from zero. -/
def candidate (table : String) (k : Nat) : String :=
  if k = 0 then table else table ++ "_" ++ toString k

/-- The number of occurrences of a table. -/
def count (pool : AliasPool) (table : String) : Nat :=
  (pool.counts.get? table).getD 0

/-- The least number from the count of the table on whose candidate is free. As many numbers as
there are aliases in use cannot all be taken, so one more suffices. -/
def suffix (pool : AliasPool) (table : String) : Nat :=
  let start := pool.count table
  ((List.range' start (pool.taken.length + 1)).find? fun k => candidate table k ∉ pool.taken).getD
    start

/-- The next alias of the table, and the pool in which it is in use. -/
def allocate (pool : AliasPool) (table : String) : String × AliasPool :=
  let k := pool.suffix table
  let tableAlias := candidate table k
  (tableAlias, ⟨pool.counts.insert table (k + 1), tableAlias :: pool.taken⟩)

/-! ## The chosen alias is the first free one -/

theorem candidate_zero (table : String) : candidate table 0 = table := rfl

/-- A numbered candidate ends in the digits of its number. -/
theorem toList_candidate (table : String) {k : Nat} (hk : k ≠ 0) :
    (candidate table k).toList = table.toList ++ '_' :: Nat.toDigits 10 k := by
  simp [candidate, hk, toString, Nat.repr]

/-- Different numbers make different candidates. -/
theorem candidate_inj {table : String} {j k : Nat} :
    candidate table j = candidate table k ↔ j = k := by
  refine ⟨fun h => ?_, fun h => h ▸ rfl⟩
  replace h := congrArg String.toList h
  by_cases hj : j = 0 <;> by_cases hk : k = 0
  · rw [hj, hk]
  · rw [toList_candidate table hk, hj, candidate_zero] at h
    simpa using congrArg List.length h
  · rw [toList_candidate table hj, hk, candidate_zero] at h
    simpa using congrArg List.length h
  · rw [toList_candidate table hj, toList_candidate table hk] at h
    have h : Nat.toDigits 10 j = Nat.toDigits 10 k := by simpa using h
    simpa [Nat.ofDigitChars_toDigits] using congrArg (Nat.ofDigitChars 10 · 0) h

/-- More candidates than aliases in use: one of them is free. -/
theorem exists_candidate_not_mem (table : String) (taken : List String) (start : Nat) :
    ∃ k ∈ List.range' start (taken.length + 1), candidate table k ∉ taken := by
  refine Classical.byContradiction fun h => ?_
  simp only [not_exists, not_and, Classical.not_not] at h
  have hnodup : ((List.range' start (taken.length + 1)).map (candidate table)).Nodup :=
    List.pairwise_map.2 <| (List.nodup_range' 1 Nat.one_pos).imp fun hne heq =>
      hne (candidate_inj.1 heq)
  have hsub : (List.range' start (taken.length + 1)).map (candidate table) ⊆ taken := by
    intro name hname
    obtain ⟨k, hk, rfl⟩ := List.mem_map.1 hname
    exact h k hk
  have hlen := hnodup.length_le_of_subset hsub
  rw [List.length_map, List.length_range'] at hlen
  exact absurd hlen (Nat.not_succ_le_self _)

theorem find?_range'_suffix (pool : AliasPool) (table : String) :
    (List.range' (pool.count table) (pool.taken.length + 1)).find?
      (fun k => candidate table k ∉ pool.taken) = some (pool.suffix table) := by
  simp only [suffix]
  generalize hf : (List.range' (pool.count table) (pool.taken.length + 1)).find?
    (fun k => candidate table k ∉ pool.taken) = found
  cases found with
  | some k => rfl
  | none =>
    obtain ⟨k, hk, hfree⟩ := exists_candidate_not_mem table pool.taken (pool.count table)
    exact absurd hfree (by simpa using List.find?_eq_none.1 hf k hk)

/-- The chosen candidate is free. -/
theorem candidate_suffix_not_mem (pool : AliasPool) (table : String) :
    candidate table (pool.suffix table) ∉ pool.taken := by
  simpa using (List.find?_range'_eq_some.1 (find?_range'_suffix pool table)).1

/-- An allocated alias was free. -/
theorem allocate_fst_not_mem (pool : AliasPool) (table : String) :
    (pool.allocate table).1 ∉ pool.taken :=
  candidate_suffix_not_mem pool table

/-- An allocated alias is in use from then on. -/
@[simp] theorem taken_allocate (pool : AliasPool) (table : String) :
    (pool.allocate table).2.taken = (pool.allocate table).1 :: pool.taken := rfl

/-- Only the count of the table changes. -/
theorem count_allocate (pool : AliasPool) (table other : String) :
    (pool.allocate table).2.count other =
      if other = table then pool.suffix table + 1 else pool.count other := by
  simp only [allocate, count, KeyedList.get?_insert]
  split <;> rfl

theorem count_le_suffix (pool : AliasPool) (table : String) :
    pool.count table ≤ pool.suffix table :=
  (List.mem_range'_1.1 (List.find?_range'_eq_some.1 (find?_range'_suffix pool table)).2.1).1

/-- Every earlier candidate from the count on is in use. -/
theorem candidate_mem_of_lt_suffix {pool : AliasPool} {table : String} {k : Nat}
    (hcount : pool.count table ≤ k) (hk : k < pool.suffix table) :
    candidate table k ∈ pool.taken := by
  simpa using (List.find?_range'_eq_some.1 (find?_range'_suffix pool table)).2.2 k hcount hk

/-- No number is passed over if the first candidate is free. -/
theorem suffix_eq_count {pool : AliasPool} {table : String}
    (hfree : candidate table (pool.count table) ∉ pool.taken) :
    pool.suffix table = pool.count table := by
  refine Nat.le_antisymm (Nat.le_of_not_lt fun hlt => hfree ?_) (count_le_suffix pool table)
  exact candidate_mem_of_lt_suffix (Nat.le_refl _) hlt

end AliasPool

end RequestPlan
