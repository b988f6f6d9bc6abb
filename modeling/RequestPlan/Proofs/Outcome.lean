import Mathlib.Data.List.Forall2

/-!
# Outcomes

What the parts of a computation did when the whole of it succeeded, and which part failed when the
whole did.

* `bind_eq_ok_iff`, `map_eq_ok_iff`: one step and the next;
* `bind_congr_ok`: only what a step gives when it succeeds matters for the next one;
* `ite_eq_ok_iff`, `check_bind_eq_ok_iff`: a check, and a check before the next step;
* `mapM_eq_ok_iff`, `exists_mapM_eq_ok`: a step for each item of a list;
* `exists_result_of_mem`, `exists_append_of_forall₂`: each item, and each part, has its results;
* `forall₂_iff_of_mem`: what counts is how the items of the list relate to results;
* `forall₂_of_same_items`, `flatMap_perm_of_forall₂`: two lists of results;
* `flatten_mapM_eq_ok_iff`, `exists_item_of_mem_flatten`: steps that each add to one list;
* `forM_eq_ok_iff`: a check of each item;
* `bind_eq_error_iff`, `exists_item_of_mapM_eq_error`, `exists_item_of_forM_eq_error`: a failure is
  that of a step;
* `Parallel`: outcomes that are the same failure, or results that are related;
* `Parallel.foldlM_forM`, `Parallel.mapM_forM`: steps that fail as a check of their items does, and
  keep an invariant otherwise.
-/

namespace RequestPlan

variable {ε α β : Type}

@[simp] theorem pure_eq_ok_iff {a b : α} : (pure a : Except ε α) = .ok b ↔ a = b := by
  simp [pure, Except.pure]

theorem bind_eq_ok_iff {x : Except ε α} {f : α → Except ε β} {b : β} :
    (x >>= f) = .ok b ↔ ∃ a, x = .ok a ∧ f a = .ok b := by
  cases x <;> simp [bind, Except.bind]

@[simp] theorem ok_bind {a : α} {f : α → Except ε β} : ((.ok a : Except ε α) >>= f) = f a := rfl

@[simp] theorem error_bind {e : ε} {f : α → Except ε β} :
    ((.error e : Except ε α) >>= f) = .error e := rfl

/-- Two next steps that do the same with what the first step gives. -/
theorem bind_congr_ok {x : Except ε α} {f g : α → Except ε β} (h : ∀ a, x = .ok a → f a = g a) :
    (x >>= f) = (x >>= g) := by
  cases x with
  | ok a => exact h a rfl
  | error e => rfl

/-- A check and what comes after it. -/
theorem check_bind_eq_ok_iff {x : Except ε Unit} {f : Unit → Except ε β} {b : β} :
    (x >>= f) = .ok b ↔ x = .ok () ∧ f () = .ok b := by
  cases x <;> simp [bind, Except.bind]

theorem ite_eq_ok_iff {p : Prop} [Decidable p] {e : ε} :
    (if p then .ok () else .error e) = Except.ok () ↔ p := by
  split <;> simp [*]

theorem map_eq_ok_iff {x : Except ε α} {f : α → β} {b : β} :
    (f <$> x) = .ok b ↔ ∃ a, x = .ok a ∧ f a = b := by
  cases x <;> simp [Functor.map, Except.map]

theorem toOption_eq_some_iff {x : Except ε α} {a : α} : x.toOption = some a ↔ x = .ok a := by
  cases x <;> simp [Except.toOption]

/-- A list of steps succeeds when each of them does, with the list of their results. -/
theorem mapM_eq_ok_iff {f : α → Except ε β} {items : List α} {results : List β} :
    items.mapM f = .ok results ↔
      List.Forall₂ (fun item result => f item = .ok result) items results := by
  induction items generalizing results with
  | nil => rw [List.mapM_nil, pure_eq_ok_iff, List.forall₂_nil_left_iff, eq_comm]
  | cons item items ih =>
    rw [List.mapM_cons, List.forall₂_cons_left_iff]
    simp only [bind_eq_ok_iff, pure_eq_ok_iff, ih]
    constructor
    · rintro ⟨result, hitem, others, hothers, rfl⟩
      exact ⟨result, others, hitem, hothers, rfl⟩
    · rintro ⟨result, others, hitem, hothers, rfl⟩
      exact ⟨result, hitem, others, hothers, rfl⟩

/-- A list of steps of which each succeeds with a result of some kind. -/
theorem exists_mapM_eq_ok {f : α → Except ε β} {R : α → β → Prop} {items : List α}
    (h : ∀ item ∈ items, ∃ result, f item = .ok result ∧ R item result) :
    ∃ results, items.mapM f = .ok results ∧ List.Forall₂ R items results := by
  induction items with
  | nil => exact ⟨[], rfl, .nil⟩
  | cons item items ih =>
    obtain ⟨result, hitem, hresult⟩ := h item List.mem_cons_self
    obtain ⟨results, hrest, hresults⟩ := ih fun other hother =>
      h other (List.mem_cons_of_mem _ hother)
    exact ⟨result :: results, by rw [List.mapM_cons, hitem, hrest]; rfl, .cons hresult hresults⟩

/-- Steps whose results are lists, put together to one list. -/
theorem flatten_mapM_eq_ok_iff {f : α → Except ε (List β)} {items : List α} {results : List β} :
    List.flatten <$> items.mapM f = .ok results ↔
      ∃ parts : List (List β), parts.flatten = results ∧
        List.Forall₂ (fun item part => f item = .ok part) items parts := by
  simp only [map_eq_ok_iff, mapM_eq_ok_iff, and_comm]

/-- Each item has a result. -/
theorem exists_result_of_mem {R : α → β → Prop} {items : List α} {results : List β}
    (h : List.Forall₂ R items results) {item : α} (hitem : item ∈ items) :
    ∃ result ∈ results, R item result := by
  induction h with
  | nil => simp at hitem
  | @cons first result items results hfirst _ ih =>
    rcases List.mem_cons.1 hitem with rfl | hitem
    · exact ⟨result, List.mem_cons_self, hfirst⟩
    · obtain ⟨other, hmem, hother⟩ := ih hitem
      exact ⟨other, List.mem_cons_of_mem _ hmem, hother⟩

/-- Each result comes from an item. -/
theorem exists_item_of_mem_flatten {R : α → List β → Prop} {items : List α}
    {parts : List (List β)} {result : β} (h : List.Forall₂ R items parts)
    (hr : result ∈ parts.flatten) : ∃ item ∈ items, ∃ part, R item part ∧ result ∈ part := by
  induction h with
  | nil => simp at hr
  | @cons item part items parts hfirst _ ih =>
    rw [List.flatten_cons, List.mem_append] at hr
    rcases hr with hr | hr
    · exact ⟨item, List.mem_cons_self, part, hfirst, hr⟩
    · obtain ⟨other, hmem, hother⟩ := ih hr
      exact ⟨other, List.mem_cons_of_mem _ hmem, hother⟩

/-- Only how the items of the list relate to results matters. -/
theorem forall₂_iff_of_mem {R S : α → β → Prop} {items : List α} {results : List β}
    (h : ∀ item ∈ items, ∀ result, R item result ↔ S item result) :
    List.Forall₂ R items results ↔ List.Forall₂ S items results := by
  induction items generalizing results with
  | nil => rw [List.forall₂_nil_left_iff, List.forall₂_nil_left_iff]
  | cons item items ih =>
    obtain ⟨hitem, hitems⟩ := List.forall_mem_cons.1 h
    simp only [List.forall₂_cons_left_iff, hitem, ih hitems]

/-- Two lists of results of the same items are related in the way that two results of one item
are. -/
theorem forall₂_of_same_items {γ : Type} {R : α → β → Prop} {S : α → γ → Prop} {T : β → γ → Prop}
    {items : List α} {results : List β} {others : List γ} (h : List.Forall₂ R items results)
    (h' : List.Forall₂ S items others)
    (hitem : ∀ item ∈ items, ∀ result other, R item result → S item other → T result other) :
    List.Forall₂ T results others := by
  induction h generalizing others with
  | nil =>
    rw [List.forall₂_nil_left_iff.1 h']
    exact .nil
  | cons hfirst _ ih =>
    obtain ⟨other, others, hother, hothers, rfl⟩ := List.forall₂_cons_left_iff.1 h'
    obtain ⟨hhead, htail⟩ := List.forall_mem_cons.1 hitem
    exact .cons (hhead _ other hfirst hother) (ih hothers htail)

/-- Parts that are the same in another order make up the same list in another order. -/
theorem flatMap_perm_of_forall₂ {γ δ : Type} {f : β → List δ} {g : γ → List δ} {results : List β}
    {others : List γ} (h : List.Forall₂ (fun result other => (f result).Perm (g other))
      results others) : (results.flatMap f).Perm (others.flatMap g) := by
  induction h with
  | nil => exact .refl _
  | cons hfirst _ ih =>
    rw [List.flatMap_cons, List.flatMap_cons]
    exact hfirst.append ih

/-- The results of an append fall apart into those of its parts. -/
theorem exists_append_of_forall₂ {R : α → β → Prop} {front back : List α} {results : List β}
    (h : List.Forall₂ R (front ++ back) results) :
    ∃ first second, results = first ++ second ∧ List.Forall₂ R front first ∧
      List.Forall₂ R back second := by
  induction front generalizing results with
  | nil => exact ⟨[], results, rfl, .nil, h⟩
  | cons item front ih =>
    obtain ⟨result, others, hitem, hothers, rfl⟩ := List.forall₂_cons_left_iff.1 h
    obtain ⟨first, second, rfl, hfront, hback⟩ := ih hothers
    exact ⟨result :: first, second, rfl, .cons hitem hfront, hback⟩

/-- A list of checks succeeds when each of them does. -/
theorem forM_eq_ok_iff {f : α → Except ε Unit} {items : List α} :
    items.forM f = .ok () ↔ ∀ item ∈ items, f item = .ok () := by
  induction items with
  | nil => simp
  | cons item items ih =>
    rw [List.forM_eq_forM] at ih ⊢
    rw [List.forM_cons, check_bind_eq_ok_iff, List.forall_mem_cons, ih]

/-! ## Failures -/

theorem exists_ok_or_error (x : Except ε α) : (∃ a, x = .ok a) ∨ ∃ e, x = .error e := by
  cases x with
  | ok a => exact .inl ⟨a, rfl⟩
  | error e => exact .inr ⟨e, rfl⟩

@[simp] theorem pure_ne_error {a : α} {e : ε} : (pure a : Except ε α) ≠ .error e := by
  simp [pure, Except.pure]

theorem bind_eq_error_iff {x : Except ε α} {f : α → Except ε β} {e : ε} :
    (x >>= f) = .error e ↔ x = .error e ∨ ∃ a, x = .ok a ∧ f a = .error e := by
  cases x <;> simp [bind, Except.bind]

theorem check_bind_eq_error_iff {x : Except ε Unit} {f : Unit → Except ε β} {e : ε} :
    (x >>= f) = .error e ↔ x = .error e ∨ x = .ok () ∧ f () = .error e := by
  cases x <;> simp [bind, Except.bind]

theorem map_eq_error_iff {x : Except ε α} {f : α → β} {e : ε} :
    (f <$> x) = .error e ↔ x = .error e := by
  cases x <;> simp [Functor.map, Except.map]

/-- A list of steps fails in the way in which one of them does. -/
theorem exists_item_of_mapM_eq_error {f : α → Except ε β} {items : List α} {e : ε}
    (h : items.mapM f = .error e) : ∃ item ∈ items, f item = .error e := by
  induction items with
  | nil => simp at h
  | cons item items ih =>
    rw [List.mapM_cons, bind_eq_error_iff] at h
    rcases h with hitem | ⟨result, -, hrest⟩
    · exact ⟨item, List.mem_cons_self, hitem⟩
    · rcases bind_eq_error_iff.1 hrest with hrest | ⟨results, -, hpure⟩
      · obtain ⟨other, hmem, hother⟩ := ih hrest
        exact ⟨other, List.mem_cons_of_mem _ hmem, hother⟩
      · exact absurd hpure pure_ne_error

/-- A list of checks fails in the way in which one of them does. -/
theorem exists_item_of_forM_eq_error {f : α → Except ε Unit} {items : List α} {e : ε}
    (h : items.forM f = .error e) : ∃ item ∈ items, f item = .error e := by
  induction items with
  | nil => simp at h
  | cons item items ih =>
    rw [List.forM_eq_forM, List.forM_cons, bind_eq_error_iff] at h
    rcases h with hitem | ⟨_, -, hrest⟩
    · exact ⟨item, List.mem_cons_self, hitem⟩
    · obtain ⟨other, hmem, hother⟩ := ih hrest
      exact ⟨other, List.mem_cons_of_mem _ hmem, hother⟩

/-! ## Outcomes side by side -/

section Parallel

variable {γ δ : Type} {R : α → β → Prop} {S : γ → δ → Prop}

/-- Two outcomes that are related results, or the same failure. -/
inductive Parallel (R : α → β → Prop) : Except ε α → Except ε β → Prop where
  | ok {a : α} {b : β} (h : R a b) : Parallel R (.ok a) (.ok b)
  | error (e : ε) : Parallel R (.error e) (.error e)

theorem Parallel.bind {x : Except ε α} {y : Except ε β} {f : α → Except ε γ} {g : β → Except ε δ}
    (h : Parallel R x y) (hnext : ∀ a b, R a b → Parallel S (f a) (g b)) :
    Parallel S (x >>= f) (y >>= g) := by
  cases h with
  | ok h => exact hnext _ _ h
  | error e => exact .error e

/-- Next steps that do the same with related results have the same outcome. -/
theorem Parallel.bind_eq {x : Except ε α} {y : Except ε β} {f : α → Except ε γ}
    {g : β → Except ε γ} (h : Parallel R x y) (hnext : ∀ a b, R a b → f a = g b) :
    (x >>= f) = (y >>= g) := by
  cases h with
  | ok h => exact hnext _ _ h
  | error e => rfl

/-- One first step, and next steps side by side. -/
theorem Parallel.of_bind {x : Except ε α} {f : α → Except ε γ} {g : α → Except ε δ}
    (hnext : ∀ a, x = .ok a → Parallel S (f a) (g a)) : Parallel S (x >>= f) (x >>= g) := by
  cases x with
  | ok a => exact hnext a rfl
  | error e => exact .error e

variable {x : Except ε α} {y : Except ε β}

/-- Steps for the same items, side by side. -/
theorem Parallel.mapM {ι : Type} {f : ι → Except ε α} {g : ι → Except ε β} {items : List ι}
    (h : ∀ item ∈ items, Parallel R (f item) (g item)) :
    Parallel (List.Forall₂ R) (items.mapM f) (items.mapM g) := by
  induction items with
  | nil => exact .ok .nil
  | cons item items ih =>
    obtain ⟨hitem, hitems⟩ := List.forall_mem_cons.1 h
    rw [List.mapM_cons, List.mapM_cons]
    exact hitem.bind fun _ _ hresult => (ih hitems).bind fun _ _ hresults =>
      .ok (.cons hresult hresults)

/-- A next step that never fails does not matter for what fails. -/
theorem Parallel.bind_left {f : α → Except ε γ} {T : γ → β → Prop} (h : Parallel R x y)
    (hnext : ∀ a b, R a b → ∃ c, f a = .ok c ∧ T c b) : Parallel T (x >>= f) y := by
  cases h with
  | ok h =>
    obtain ⟨c, hc, hT⟩ := hnext _ _ h
    rw [ok_bind, hc]
    exact .ok hT
  | error e => exact .error e

theorem Parallel.imp {T : α → β → Prop} (h : Parallel R x y) (himp : ∀ a b, R a b → T a b) :
    Parallel T x y := by
  cases h with
  | ok h => exact .ok (himp _ _ h)
  | error e => exact .error e

/-- What is related on the left is the first outcome. -/
theorem Parallel.self (h : Parallel R x y) : Parallel (fun a b => x = .ok a ∧ R a b) x y := by
  cases h with
  | ok h => exact .ok ⟨rfl, h⟩
  | error e => exact .error e

theorem Parallel.of_ok (h : Parallel R x y) {a : α} (ha : x = .ok a) :
    ∃ b, y = .ok b ∧ R a b := by
  cases h with
  | ok h => exact ⟨_, rfl, Except.ok.inj ha ▸ h⟩
  | error e => cases ha

theorem Parallel.exists_ok (h : Parallel R x y) {b : β} (hb : y = .ok b) :
    ∃ a, x = .ok a ∧ R a b := by
  cases h with
  | ok h => exact ⟨_, rfl, Except.ok.inj hb ▸ h⟩
  | error e => cases hb

theorem Parallel.error_iff (h : Parallel R x y) {e : ε} : x = .error e ↔ y = .error e := by
  cases h <;> simp

end Parallel

section Checked

variable {g : α → Except ε Unit}

/-- Steps that fail as the checks of their items do, and keep an invariant otherwise. -/
theorem Parallel.foldlM_forM {f : β → α → Except ε β} {motive : List α → β → Prop} {first : β}
    (hfirst : motive [] first)
    (hstep : ∀ done state item, motive done state →
      Parallel (fun next _ => motive (done ++ [item]) next) (f state item) (g item))
    (items : List α) :
    Parallel (fun last _ => motive items last) (items.foldlM f first) (items.forM g) := by
  suffices hrun : ∀ done state, motive done state →
      Parallel (fun last _ => motive (done ++ items) last) (items.foldlM f state)
        (items.forM g) from
    hrun [] first hfirst
  induction items with
  | nil =>
    intro done state hstate
    exact .ok ((List.append_nil done).symm ▸ hstate)
  | cons item items ih =>
    intro done state hstate
    refine (hstep done state item hstate).bind fun next _ hnext => ?_
    have hrest := ih (done ++ [item]) next hnext
    rwa [List.append_assoc, List.singleton_append] at hrest

/-- Steps that fail as the checks of their items do, and have results of some kind otherwise. -/
theorem Parallel.mapM_forM {f : α → Except ε β} {T : α → β → Prop} {items : List α}
    (h : ∀ item ∈ items, Parallel (fun result _ => T item result) (f item) (g item)) :
    Parallel (fun results _ => List.Forall₂ T items results) (items.mapM f) (items.forM g) := by
  induction items with
  | nil => exact .ok .nil
  | cons item items ih =>
    obtain ⟨hitem, hitems⟩ := List.forall_mem_cons.1 h
    rw [List.mapM_cons]
    refine hitem.bind fun result _ hresult => ?_
    exact (ih hitems).bind_left fun results _ hresults => ⟨_, rfl, .cons hresult hresults⟩

end Checked

end RequestPlan
