import Mathlib.Data.List.Infix

/-!
# First occurrences

Keeping the first occurrence of each item of a list. A list that grows by the items that it lacks,
one after the other, keeps exactly the first occurrences of everything that was offered to it.

* `nodup_eraseDups`, `eraseDups_of_nodup`: the lists without repetition are those left as they are;
* `eraseDups_eraseDups_append`, `eraseDups_append_cons_of_mem`: what was kept already does not
  matter to the rest;
* `eraseDups_isPrefix_append`, `eraseDups_append_of_forall_mem`: what comes later is kept at the
  end, if at all;
* `eraseDups_flatMap_eraseDups`: an item that occurred before has nothing new to offer.
-/

namespace RequestPlan

variable {α : Type} [BEq α] [LawfulBEq α]

theorem nodup_eraseDups (items : List α) : items.eraseDups.Nodup := by
  induction h : items.length using Nat.strong_induction_on generalizing items with
  | _ n ih =>
    cases items with
    | nil => simp
    | cons first rest =>
      rw [List.eraseDups_cons, List.nodup_cons]
      refine ⟨by simp [List.mem_eraseDups], ih _ ?_ _ rfl⟩
      have := List.length_filter_le (fun other => !other == first) rest
      rw [List.length_cons] at h
      omega

theorem removeAll_congr {items known known' : List α} (h : ∀ item, item ∈ known ↔ item ∈ known') :
    items.removeAll known = items.removeAll known' := by
  refine List.filter_congr fun item _ => ?_
  rw [Bool.eq_iff_iff]
  simp [h item]

theorem eraseDups_of_nodup {items : List α} (h : items.Nodup) : items.eraseDups = items := by
  induction items with
  | nil => rfl
  | cons first rest ih =>
    obtain ⟨hfirst, hrest⟩ := List.nodup_cons.1 h
    have hkept : rest.filter (fun other => !other == first) = rest := by
      refine List.filter_eq_self.2 fun other hother => ?_
      have hne : other ≠ first := fun heq => hfirst (heq ▸ hother)
      simpa using hne
    rw [List.eraseDups_cons, hkept, ih hrest]

/-- Keeping first occurrences earlier, in the front part of a list, changes nothing. -/
theorem eraseDups_eraseDups_append (front back : List α) :
    (front.eraseDups ++ back).eraseDups = (front ++ back).eraseDups := by
  rw [List.eraseDups_append, List.eraseDups_append, eraseDups_of_nodup (nodup_eraseDups front),
    removeAll_congr fun _ => List.mem_eraseDups]

/-- An item that occurred before is not kept. -/
theorem eraseDups_append_cons_of_mem {front : List α} {item : α} (h : item ∈ front)
    (back : List α) : (front ++ item :: back).eraseDups = (front ++ back).eraseDups := by
  rw [List.eraseDups_append, List.eraseDups_append, List.cons_removeAll, if_neg (by simpa using h)]

/-- Later items do not change what was kept of the earlier ones. -/
theorem eraseDups_isPrefix_append (front back : List α) :
    front.eraseDups <+: (front ++ back).eraseDups := by
  rw [List.eraseDups_append]
  exact List.prefix_append _ _

/-- Of items that all occurred before nothing is kept. -/
theorem eraseDups_append_of_forall_mem {front back : List α} (h : ∀ item ∈ back, item ∈ front) :
    (front ++ back).eraseDups = front.eraseDups := by
  have hnone : back.removeAll front = [] := by
    refine List.filter_eq_nil_iff.2 fun item hitem => ?_
    simpa using h item hitem
  rw [List.eraseDups_append, hnone, List.eraseDups_nil, List.append_nil]

/-- An item that did not occur before is kept at the end. -/
theorem eraseDups_concat_of_not_mem {items : List α} {item : α} (h : item ∉ items) :
    (items ++ [item]).eraseDups = items.eraseDups ++ [item] := by
  rw [List.eraseDups_append, List.cons_removeAll, if_pos (by simpa using h)]
  exact congrArg (items.eraseDups ++ ·) (eraseDups_of_nodup (List.pairwise_singleton _ item))

/-- What the items of a list offer, one after the other, is kept as well if each item is asked only
where it occurs first. -/
theorem eraseDups_flatMap_eraseDups {β : Type} [BEq β] [LawfulBEq β] (items : List β)
    (f : β → List α) : (items.eraseDups.flatMap f).eraseDups = (items.flatMap f).eraseDups := by
  induction items using List.reverseRecOn with
  | nil => rfl
  | append_singleton items item ih =>
    rw [List.flatMap_append, List.flatMap_singleton]
    by_cases h : item ∈ items
    · have hoffered : ∀ offer ∈ f item, offer ∈ items.flatMap f := fun offer hoffer =>
        List.mem_flatMap_of_mem h hoffer
      rw [eraseDups_append_of_forall_mem (by simpa using h), ih,
        eraseDups_append_of_forall_mem hoffered]
    · rw [eraseDups_concat_of_not_mem h, List.flatMap_append, List.flatMap_singleton,
        ← eraseDups_eraseDups_append, ih, eraseDups_eraseDups_append]

end RequestPlan
