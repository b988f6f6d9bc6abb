/-!
# Occurrences of a marker

Where a marker occurs in a text, cutting the text at its occurrences, and putting something else in
their place.

* `occurs`: whether the marker occurs at all;
* `pieces`: the text between the leftmost occurrences that do not overlap;
* `replaceAll`: those pieces with a replacement between them;
* `cuts`: every way to cut a text in two at a separator character;
* `startsWith`, `after?`: a marker at the front of a text, and what follows it.

`intercalate_pieces` says that the pieces make up the text, `mem_cuts` that `cuts` misses none, and
`pairwise_cuts` in which order it lists them.
-/

namespace RequestPlan.Text

/-- Whether the marker occurs in the text. -/
def occurs (marker : List Char) : List Char → Bool
  | [] => marker.isEmpty
  | c :: rest => marker.isPrefixOf (c :: rest) || occurs marker rest

/-- The pieces of the text between the leftmost occurrences of the marker that do not overlap. A
marker without characters is taken to occur in front of every character. -/
def pieces (marker : List Char) : List Char → List (List Char)
  | [] => [[]]
  | c :: rest =>
    if marker.isPrefixOf (c :: rest) then [] :: pieces marker (rest.drop (marker.length - 1))
    else (pieces marker rest).modifyHead (c :: ·)
termination_by text => text.length
decreasing_by
  · rw [List.length_drop, List.length_cons]
    omega
  · exact Nat.lt_succ_self _

/-- The text with every occurrence found by `pieces` replaced. -/
def replaceAll (marker replacement text : List Char) : List Char :=
  replacement.intercalate (pieces marker text)

/-- Every way to cut the text in two at the separator, the shortest first part first. -/
def cuts (separator : Char) : List Char → List (List Char × List Char)
  | [] => []
  | c :: rest =>
    let later := (cuts separator rest).map fun (before, after) => (c :: before, after)
    if c = separator then ([], rest) :: later else later

/-- Whether the text starts with the given beginning. -/
def startsWith (beginning text : String) : Bool :=
  beginning.toList.isPrefixOf text.toList

/-- What follows the given beginning of the text, if the text begins that way. -/
def after? (beginning text : List Char) : Option (List Char) :=
  if beginning.isPrefixOf text then some (text.drop beginning.length) else none

/-! ## What the searches find -/

theorem startsWith_iff {beginning text : String} :
    startsWith beginning text = true ↔ ∃ rest, text = beginning ++ rest := by
  rw [startsWith, List.isPrefixOf_iff_prefix]
  constructor
  · rintro ⟨rest, h⟩
    refine ⟨String.ofList rest, ?_⟩
    rw [← String.toList_inj]
    simp [h]
  · rintro ⟨rest, rfl⟩
    exact ⟨rest.toList, by simp⟩

theorem after?_eq_some_iff {beginning text rest : List Char} :
    after? beginning text = some rest ↔ beginning ++ rest = text := by
  simp only [after?, Option.ite_none_right_eq_some, Option.some.injEq, List.isPrefixOf_iff_prefix]
  constructor
  · rintro ⟨⟨t, rfl⟩, rfl⟩
    simp
  · rintro rfl
    simp

theorem occurs_iff {marker text : List Char} :
    occurs marker text = true ↔ ∃ before after, text = before ++ marker ++ after := by
  induction text with
  | nil =>
    simp only [occurs, List.isEmpty_iff]
    constructor
    · rintro rfl
      exact ⟨[], [], rfl⟩
    · rintro ⟨before, after, h⟩
      simp_all
  | cons c rest ih =>
    simp only [occurs, Bool.or_eq_true, ih, List.isPrefixOf_iff_prefix]
    constructor
    · rintro (⟨after, h⟩ | ⟨before, after, rfl⟩)
      · exact ⟨[], after, by simpa using h.symm⟩
      · exact ⟨c :: before, after, by simp⟩
    · rintro ⟨before, after, h⟩
      cases before with
      | nil => exact .inl ⟨after, by simpa using h.symm⟩
      | cons b before =>
        simp only [List.cons_append, List.cons.injEq] at h
        exact .inr ⟨before, after, h.2⟩

theorem pieces_ne_nil (marker text : List Char) : pieces marker text ≠ [] := by
  fun_induction pieces marker text with
  | case1 => simp
  | case2 => simp
  | case3 c rest h ih => simpa [List.modifyHead_eq_nil_iff] using ih

/-- The pieces with the marker between them are the text again. -/
theorem intercalate_pieces {marker : List Char} (hm : marker ≠ []) (text : List Char) :
    marker.intercalate (pieces marker text) = text := by
  fun_induction pieces marker text with
  | case1 => simp
  | case2 c rest h ih =>
    obtain ⟨after, h⟩ := List.isPrefixOf_iff_prefix.1 h
    obtain ⟨m, marker, rfl⟩ := List.exists_cons_of_ne_nil hm
    simp only [List.cons_append, List.cons.injEq] at h
    obtain ⟨rfl, rfl⟩ := h
    rw [List.intercalate_cons_of_ne_nil (pieces_ne_nil _ _), ih]
    simp
  | case3 c rest h ih =>
    cases hp : pieces marker rest with
    | nil => exact absurd hp (pieces_ne_nil _ _)
    | cons first others =>
      rw [hp] at ih
      simp [List.intercalate_cons_cons_left, ih]

/-- `cuts` finds exactly the ways to write the text with the separator between two parts. -/
theorem mem_cuts {separator : Char} {text before after : List Char} :
    (before, after) ∈ cuts separator text ↔ before ++ separator :: after = text := by
  induction text generalizing before with
  | nil => simp [cuts]
  | cons c rest ih =>
    have later : (before, after) ∈ (cuts separator rest).map
        (fun (before, after) => (c :: before, after)) ↔
          ∃ b, before = c :: b ∧ b ++ separator :: after = rest := by
      simp only [List.mem_map, Prod.mk.injEq, Prod.exists]
      constructor
      · rintro ⟨b, a, h, rfl, rfl⟩
        exact ⟨b, rfl, ih.1 h⟩
      · rintro ⟨b, rfl, h⟩
        exact ⟨b, after, ih.2 h, rfl, rfl⟩
    have split : (before, after) ∈ cuts separator (c :: rest) ↔
        (c = separator ∧ before = [] ∧ after = rest) ∨
          ∃ b, before = c :: b ∧ b ++ separator :: after = rest := by
      rw [← later]
      by_cases hc : c = separator <;> simp [cuts, hc]
    rw [split]
    cases before <;> grind

/-- The ways to cut a text are listed with the shorter first parts first. -/
theorem pairwise_cuts (separator : Char) (text : List Char) :
    (cuts separator text).Pairwise fun first second => first.1.length < second.1.length := by
  induction text with
  | nil => exact .nil
  | cons c rest ih =>
    have hlater : ((cuts separator rest).map fun (before, after) => (c :: before, after)).Pairwise
        fun first second => first.1.length < second.1.length :=
      List.pairwise_map.2 (ih.imp fun h => Nat.succ_lt_succ h)
    rw [cuts]
    split
    · refine List.pairwise_cons.2 ⟨fun cut hcut => ?_, hlater⟩
      obtain ⟨⟨before, after⟩, -, rfl⟩ := List.mem_map.1 hcut
      exact Nat.succ_pos _
    · exact hlater

end RequestPlan.Text
