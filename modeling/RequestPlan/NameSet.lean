/-!
# Sets of names

Finite sets of names, kept in ascending order of their code points, so that equal sets are equal
values and listing a set needs no sorting.

* `ofList`: the set of the names in a list;
* `mem_ofList`, `NameSet.ext`: membership describes a set.
-/

namespace RequestPlan

/-- A set of names: a strictly ascending list. -/
structure NameSet where
  toList : List String
  ascending : toList.Pairwise (· < ·)
  deriving DecidableEq

namespace NameSet

instance : Membership String NameSet := ⟨fun s name => name ∈ s.toList⟩

instance (name : String) (s : NameSet) : Decidable (name ∈ s) :=
  inferInstanceAs (Decidable (name ∈ s.toList))

/-- An ascending list with the name put in its place. -/
def insertName (name : String) : List String → List String
  | [] => [name]
  | first :: rest =>
    if name < first then name :: first :: rest
    else if name = first then first :: rest
    else first :: insertName name rest

theorem mem_insertName {name other : String} {names : List String} :
    other ∈ insertName name names ↔ other = name ∨ other ∈ names := by
  induction names with
  | nil => simp [insertName]
  | cons first rest ih =>
    simp only [insertName]
    split
    · simp
    · split
      · next h => simp [h]
      · simp only [List.mem_cons, ih]
        grind

theorem ascending_insertName {name : String} {names : List String}
    (h : names.Pairwise (· < ·)) : (insertName name names).Pairwise (· < ·) := by
  induction names with
  | nil => simp [insertName]
  | cons first rest ih =>
    have hrest := List.pairwise_cons.1 h
    simp only [insertName]
    split
    · next hlt =>
      refine List.pairwise_cons.2 ⟨fun other hm => ?_, h⟩
      rcases List.mem_cons.1 hm with rfl | hm
      · exact hlt
      · exact String.lt_trans hlt (hrest.1 other hm)
    · next hnot =>
      split
      · exact h
      · next hne =>
        refine List.pairwise_cons.2 ⟨fun other hm => ?_, ih hrest.2⟩
        rcases mem_insertName.1 hm with rfl | hm
        · refine String.not_le.1 fun hle => hne ?_
          exact String.le_antisymm hle (String.not_lt.1 hnot)
        · exact hrest.1 other hm

/-- The set without names. -/
def empty : NameSet := ⟨[], .nil⟩

instance : EmptyCollection NameSet := ⟨empty⟩

instance : Inhabited NameSet := ⟨empty⟩

/-- The set with one more name. -/
def insert (s : NameSet) (name : String) : NameSet :=
  ⟨insertName name s.toList, ascending_insertName s.ascending⟩

/-- The set of the names in a list. -/
def ofList (names : List String) : NameSet :=
  names.foldr (fun name s => s.insert name) empty

theorem mem_toList {s : NameSet} {name : String} : name ∈ s.toList ↔ name ∈ s := Iff.rfl

@[simp] theorem not_mem_empty (name : String) : name ∉ (empty : NameSet) := List.not_mem_nil

@[simp] theorem mem_insert {s : NameSet} {name other : String} :
    other ∈ s.insert name ↔ other = name ∨ other ∈ s :=
  mem_insertName

@[simp] theorem mem_ofList {names : List String} {name : String} :
    name ∈ ofList names ↔ name ∈ names := by
  induction names with
  | nil => simp [ofList]
  | cons first rest ih =>
    rw [show ofList (first :: rest) = (ofList rest).insert first from rfl, mem_insert, ih,
      List.mem_cons]

theorem nodup_toList (s : NameSet) : s.toList.Nodup :=
  s.ascending.imp fun h => String.ne_of_lt h

/-- Sets with the same names are the same list. -/
theorem ext {s t : NameSet} (h : ∀ name, name ∈ s ↔ name ∈ t) : s = t := by
  have hperm : s.toList.Perm t.toList :=
    (List.perm_ext_iff_of_nodup s.nodup_toList t.nodup_toList).2 h
  have heq : s.toList = t.toList :=
    hperm.eq_of_pairwise (fun a b _ _ hlt hgt => absurd hgt (String.lt_asymm hlt)) s.ascending
      t.ascending
  cases s
  cases t
  simpa using heq

end NameSet

end RequestPlan
