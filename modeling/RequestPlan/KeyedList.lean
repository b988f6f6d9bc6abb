/-!
# Keyed lists

Maps from names to values that keep the order in which their names first came. Giving a name again
replaces its value in place.

* `get?`, `insert`, `ofList`, `filterKeys`: look-up and construction;
* `merge?`: the union of two keyed lists without a common name;
* `SameEntries`: equality without regard to order.

`get?_eq_some_iff` and `get?_insert` describe a keyed list by its look-ups, `keys_insert` its order.
-/

namespace RequestPlan

/-- A list of named values in which no name occurs twice. -/
structure KeyedList (α : Type) where
  entries : List (String × α)
  nodup_keys : (entries.map Prod.fst).Nodup
  deriving DecidableEq

namespace KeyedList

variable {α β : Type}

/-- The keyed list without entries. -/
def empty : KeyedList α := ⟨[], List.nodup_nil⟩

instance : EmptyCollection (KeyedList α) := ⟨empty⟩

instance : Inhabited (KeyedList α) := ⟨empty⟩

/-- The names, in order. -/
def keys (m : KeyedList α) : List String :=
  m.entries.map Prod.fst

/-- The values, in the order of their names. -/
def values (m : KeyedList α) : List α :=
  m.entries.map Prod.snd

/-- The value under the name. -/
def get? (m : KeyedList α) (key : String) : Option α :=
  (m.entries.find? fun entry => entry.1 = key).map Prod.snd

/-- Whether the name has a value. -/
def contains (m : KeyedList α) (key : String) : Bool :=
  m.keys.contains key

/-- The entries with the value under the name replaced, or with a new entry at the end. -/
def insertEntry (key : String) (value : α) : List (String × α) → List (String × α)
  | [] => [(key, value)]
  | entry :: rest =>
    if entry.1 = key then (key, value) :: rest else entry :: insertEntry key value rest

theorem map_fst_insertEntry (key : String) (value : α) (entries : List (String × α)) :
    (insertEntry key value entries).map Prod.fst =
      if key ∈ entries.map Prod.fst then entries.map Prod.fst
      else entries.map Prod.fst ++ [key] := by
  induction entries with
  | nil => simp [insertEntry]
  | cons entry rest ih =>
    by_cases h : entry.1 = key
    · simp [insertEntry, h]
    · simp only [insertEntry, h, if_false, List.map_cons, ih, List.mem_cons, Ne.symm h, false_or]
      split <;> simp

theorem nodup_insertEntry (key : String) (value : α) {entries : List (String × α)}
    (h : (entries.map Prod.fst).Nodup) : ((insertEntry key value entries).map Prod.fst).Nodup := by
  rw [map_fst_insertEntry]
  split
  · exact h
  · next hk =>
    refine List.nodup_append.2 ⟨h, by simp, fun a ha b hb => ?_⟩
    rw [List.mem_singleton.1 hb]
    exact fun heq => hk (heq ▸ ha)

/-- The keyed list with the value under the name: in place of an earlier one, or at the end. -/
def insert (m : KeyedList α) (key : String) (value : α) : KeyedList α :=
  ⟨insertEntry key value m.entries, nodup_insertEntry key value m.nodup_keys⟩

/-- The keyed list of the given entries: a repeated name keeps its first place and its last
value. -/
def ofList (entries : List (String × α)) : KeyedList α :=
  entries.foldl (fun m entry => m.insert entry.1 entry.2) empty

/-- The entries whose name passes the test. -/
def filterKeys (p : String → Bool) (m : KeyedList α) : KeyedList α where
  entries := m.entries.filter fun entry => p entry.1
  nodup_keys := m.nodup_keys.sublist (List.filter_sublist.map Prod.fst)

/-- The values with a function applied to each entry. -/
def mapValues (f : String → α → β) (m : KeyedList α) : KeyedList β where
  entries := m.entries.map fun entry => (entry.1, f entry.1 entry.2)
  nodup_keys := by simpa [Function.comp_def] using m.nodup_keys

/-- A name that two keyed lists share, with its value in each. -/
structure Overlap (α : Type) where
  key : String
  old : α
  new : α
  deriving DecidableEq

/-- The first name of the second keyed list that the first one has too. -/
def overlap? (old new : KeyedList α) : Option (Overlap α) :=
  new.entries.findSome? fun entry => (old.get? entry.1).map fun value => ⟨entry.1, value, entry.2⟩

/-- The entries of both keyed lists, if they share no name. -/
def merge? (old new : KeyedList α) : Except (Overlap α) (KeyedList α) :=
  match overlap? old new with
  | some overlap => .error overlap
  | none => .ok (new.entries.foldl (fun m entry => m.insert entry.1 entry.2) old)

/-- Two keyed lists with the same entries in any order. -/
def SameEntries (m n : KeyedList α) : Prop :=
  m.entries.Perm n.entries

instance [DecidableEq α] (m n : KeyedList α) : Decidable (SameEntries m n) :=
  inferInstanceAs (Decidable (m.entries.Perm n.entries))

/-- The entries in the order of their names. -/
def sorted (m : KeyedList α) : List (String × α) :=
  m.entries.mergeSort fun a b => decide (a.1 ≤ b.1)

theorem eq_of_entries_eq {m n : KeyedList α} (h : m.entries = n.entries) : m = n := by
  cases m
  cases n
  simpa using h

/-! ## Look-up -/

theorem map_find?_eq_some_iff {key : String} {value : α} {entries : List (String × α)}
    (h : (entries.map Prod.fst).Nodup) :
    (entries.find? fun entry => entry.1 = key).map Prod.snd = some value ↔
      (key, value) ∈ entries := by
  induction entries with
  | nil => simp
  | cons entry rest ih =>
    obtain ⟨k, v⟩ := entry
    simp only [List.map_cons, List.nodup_cons] at h
    by_cases hk : k = key
    · subst hk
      have hrest : (k, value) ∉ rest := fun hm => h.1 (List.mem_map.2 ⟨_, hm, rfl⟩)
      simp [hrest, eq_comm]
    · simp [hk, Ne.symm hk, ih h.2]

/-- A look-up finds exactly the entries. -/
theorem get?_eq_some_iff {m : KeyedList α} {key : String} {value : α} :
    m.get? key = some value ↔ (key, value) ∈ m.entries :=
  map_find?_eq_some_iff m.nodup_keys

theorem get?_eq_none_iff {m : KeyedList α} {key : String} : m.get? key = none ↔ key ∉ m.keys := by
  constructor
  · intro h hk
    obtain ⟨⟨k, v⟩, hm, rfl⟩ := List.mem_map.1 hk
    simp [get?_eq_some_iff.2 hm] at h
  · intro h
    refine Option.eq_none_iff_forall_not_mem.2 fun value hv => h ?_
    exact List.mem_map.2 ⟨_, get?_eq_some_iff.1 hv, rfl⟩

theorem contains_iff {m : KeyedList α} {key : String} : m.contains key = true ↔ key ∈ m.keys := by
  simp [contains]

theorem mem_keys_iff {m : KeyedList α} {key : String} :
    key ∈ m.keys ↔ ∃ value, m.get? key = some value := by
  rw [← Option.ne_none_iff_exists', Ne, get?_eq_none_iff, Classical.not_not]

theorem mem_values_iff {m : KeyedList α} {value : α} :
    value ∈ m.values ↔ ∃ key, m.get? key = some value := by
  simp [values, get?_eq_some_iff]

theorem nodup_entries (m : KeyedList α) : m.entries.Nodup :=
  (List.pairwise_map.1 m.nodup_keys).imp fun hne heq => hne (congrArg Prod.fst heq)

/-- Two keyed lists have the same entries if every name has the same value in both. -/
theorem sameEntries_iff {m n : KeyedList α} : SameEntries m n ↔ ∀ key, m.get? key = n.get? key := by
  rw [SameEntries, List.perm_ext_iff_of_nodup m.nodup_entries n.nodup_entries]
  constructor
  · intro h key
    refine Option.ext fun value => ?_
    rw [get?_eq_some_iff, get?_eq_some_iff, h]
  · rintro h ⟨key, value⟩
    rw [← get?_eq_some_iff, ← get?_eq_some_iff, h]

theorem mem_values_of_get?_eq_some {m : KeyedList α} {key : String} {value : α}
    (h : m.get? key = some value) : value ∈ m.values :=
  mem_values_iff.2 ⟨key, h⟩

theorem map_find?_insertEntry (key key' : String) (value : α) (entries : List (String × α)) :
    ((insertEntry key value entries).find? fun entry => entry.1 = key').map Prod.snd =
      if key' = key then some value
      else (entries.find? fun entry => entry.1 = key').map Prod.snd := by
  induction entries with
  | nil => by_cases h : key = key' <;> simp [insertEntry, h, eq_comm]
  | cons entry rest ih =>
    by_cases h : entry.1 = key
    · by_cases h' : key = key' <;> simp [insertEntry, h, h', Ne.symm, eq_comm]
    · by_cases h' : entry.1 = key'
      · simp [insertEntry, h', h' ▸ h]
      · simp [insertEntry, h, h', ih]

/-- Inserting sets the value under its name and no other. -/
theorem get?_insert (m : KeyedList α) (key key' : String) (value : α) :
    (m.insert key value).get? key' = if key' = key then some value else m.get? key' :=
  map_find?_insertEntry key key' value m.entries

/-- Inserting puts a new name at the end and leaves the others in place. -/
theorem keys_insert (m : KeyedList α) (key : String) (value : α) :
    (m.insert key value).keys = if key ∈ m.keys then m.keys else m.keys ++ [key] :=
  map_fst_insertEntry key value m.entries

@[simp] theorem get?_empty (key : String) : (empty : KeyedList α).get? key = none := rfl

theorem mem_entries_filterKeys {p : String → Bool} {m : KeyedList α} {entry : String × α} :
    entry ∈ (m.filterKeys p).entries ↔ entry ∈ m.entries ∧ p entry.1 = true :=
  List.mem_filter

theorem get?_filterKeys {p : String → Bool} {m : KeyedList α} {key : String} (h : p key = true) :
    (m.filterKeys p).get? key = m.get? key := by
  refine Option.ext fun value => ?_
  rw [get?_eq_some_iff, get?_eq_some_iff, mem_entries_filterKeys]
  simp [h]

/-- A test that every name passes which a later test lets through makes no difference. -/
theorem filterKeys_filterKeys_of_imp {p q : String → Bool} (m : KeyedList α)
    (h : ∀ key, q key = true → p key = true) : (m.filterKeys p).filterKeys q = m.filterKeys q := by
  simp only [filterKeys, List.filter_filter, mk.injEq]
  refine List.filter_congr fun entry _ => ?_
  cases hq : q entry.1 with
  | false => rfl
  | true => simp [h entry.1 hq]

theorem contains_eq_isSome (m : KeyedList α) (key : String) :
    m.contains key = (m.get? key).isSome := by
  rw [Bool.eq_iff_iff, contains_iff, Option.isSome_iff_ne_none, Ne, get?_eq_none_iff,
    Classical.not_not]

/-- An entry that does not pass the test can be set to anything. -/
theorem filter_insertEntry {p : String → Bool} {key : String} (h : p key = false) (value : α)
    (entries : List (String × α)) :
    (insertEntry key value entries).filter (fun entry => p entry.1) =
      entries.filter fun entry => p entry.1 := by
  induction entries with
  | nil => simp [insertEntry, h]
  | cons entry rest ih =>
    by_cases hk : entry.1 = key
    · simp [insertEntry, hk, h]
    · simp only [insertEntry, if_neg hk, List.filter_cons, ih]

/-! ## Many entries -/

/-- Of the entries that were inserted under a name the last one counts. -/
theorem get?_foldl_insert (m : KeyedList α) (entries : List (String × α)) (key : String) :
    (entries.foldl (fun m entry => m.insert entry.1 entry.2) m).get? key =
      ((entries.reverse.find? fun entry => entry.1 = key).map Prod.snd).or (m.get? key) := by
  induction entries generalizing m with
  | nil => rfl
  | cons entry entries ih =>
    rw [List.foldl_cons, ih, get?_insert, List.reverse_cons, List.find?_append]
    by_cases h : entry.1 = key
    · cases entries.reverse.find? fun entry => entry.1 = key <;> simp [h]
    · cases entries.reverse.find? fun entry => entry.1 = key <;> simp [h, Ne.symm h]

theorem get?_ofList (entries : List (String × α)) (key : String) :
    (ofList entries).get? key =
      (entries.reverse.find? fun entry => entry.1 = key).map Prod.snd := by
  rw [ofList, get?_foldl_insert, get?_empty, Option.or_none]

theorem insertEntry_of_not_mem {key : String} {entries : List (String × α)}
    (h : key ∉ entries.map Prod.fst) (value : α) :
    insertEntry key value entries = entries ++ [(key, value)] := by
  induction entries with
  | nil => rfl
  | cons entry entries ih =>
    rw [List.map_cons, List.mem_cons, not_or] at h
    rw [insertEntry, if_neg (Ne.symm h.1), ih h.2, List.cons_append]

/-- Entries under new names are put at the end as they are. -/
theorem entries_foldl_insert {m : KeyedList α} {entries : List (String × α)}
    (h : (m.keys ++ entries.map Prod.fst).Nodup) :
    (entries.foldl (fun m entry => m.insert entry.1 entry.2) m).entries = m.entries ++ entries := by
  induction entries generalizing m with
  | nil => simp
  | cons entry entries ih =>
    have hnew : entry.1 ∉ m.keys := fun hm =>
      (List.nodup_append.1 h).2.2 entry.1 hm entry.1 (by simp) rfl
    have hentries : (m.insert entry.1 entry.2).entries = m.entries ++ [entry] :=
      insertEntry_of_not_mem hnew entry.2
    rw [List.foldl_cons, ih, hentries, List.append_assoc, List.singleton_append]
    rw [keys, hentries]
    simpa [keys] using h

/-- Entries under different names make up a keyed list as they are. -/
theorem entries_ofList {entries : List (String × α)} (h : (entries.map Prod.fst).Nodup) :
    (ofList entries).entries = entries :=
  entries_foldl_insert (m := empty) (by simpa [keys, empty] using h)

/-! ## Unions -/

theorem overlap?_eq_none_iff {old new : KeyedList α} :
    overlap? old new = none ↔ ∀ key ∈ new.keys, key ∉ old.keys := by
  simp only [overlap?, List.findSome?_eq_none_iff, Option.map_eq_none_iff, get?_eq_none_iff, keys,
    List.forall_mem_map]

/-- As no name occurs twice it does not matter from which end a look-up starts. -/
theorem map_find?_reverse (m : KeyedList α) (key : String) :
    (m.entries.reverse.find? fun entry => entry.1 = key).map Prod.snd = m.get? key := by
  have hnodup : (m.entries.reverse.map Prod.fst).Nodup := by
    rw [List.map_reverse, (List.reverse_perm _).nodup_iff]
    exact m.nodup_keys
  refine Option.ext fun value => ?_
  rw [map_find?_eq_some_iff hnodup, get?_eq_some_iff, List.mem_reverse]

/-- Keyed lists without a common name have a union, with the values of both. -/
theorem exists_merge?_eq_ok {old new : KeyedList α} (h : ∀ key ∈ new.keys, key ∉ old.keys) :
    ∃ m, merge? old new = .ok m ∧ ∀ key, m.get? key = (old.get? key).or (new.get? key) := by
  refine ⟨_, by rw [merge?, overlap?_eq_none_iff.2 h], fun key => ?_⟩
  rw [get?_foldl_insert, map_find?_reverse]
  by_cases hkey : key ∈ new.keys
  · rw [get?_eq_none_iff.2 (h key hkey), Option.none_or, Option.or_none]
  · rw [get?_eq_none_iff.2 hkey, Option.none_or, Option.or_none]

end KeyedList

end RequestPlan
