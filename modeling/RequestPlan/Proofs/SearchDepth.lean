import Mathlib.Data.List.Nodup
import RequestPlan.Proofs.SearchOrder

/-!
# How deep the search for an owner goes

The search for an owner calls itself on related members, in one case with the name unchanged, so the
length of the name does not bound it. What bounds it is the path: each nested call is on a member of
the closure whose path is longer by one name. The names on the way down are what the path of a
member has more than that of the first one, and they leave a single name for the member. None of
this asks the closure to be that of a request; the paths in it may repeat or skip names.

* `Closure.calls`: the nested calls that the search may make;
* `Closure.Descends`, `Closure.Descends.unique`: the ways down, of which one at most ends at a path;
* `Closure.Run`, `Closure.searchWithin`: the search with a bound on how deep its calls are nested,
  and with an account of all of them;
* `Closure.Answers`, `Closure.exists_answers`: within the height of the closure the search is never
  cut off, and it visits no path twice;
* `Closure.SearchEnds`, `Closure.searchEnds`: all of it together.
-/

namespace RequestPlan

/-- A relation name leaves one rest of the name. -/
theorem eq_of_mem_descents {field name rest rest' : String} (h : (name, rest) ∈ descents field)
    (h' : (name, rest') ∈ descents field) : rest = rest' :=
  congrArg Prod.snd (eq_of_descentNumber_eq h h' rfl)

/-- No relation name is tried twice. -/
theorem pairwise_ne_descents (field : String) :
    (descents field).Pairwise fun first second => first.1 ≠ second.1 :=
  (pairwise_descents field).imp fun hlt heq => Nat.ne_of_lt hlt (congrArg _ heq)

namespace Closure

variable {closure : Closure} {member next target target' : Member}
  {name field rest residual residual' : String} {names names' : List String} {owner : FieldOwner}

/-! ## Nested calls -/

/-- The calls that the search makes where the member does not own the name, in their order: the
members that its relations lead to, each with the name that is left for it. -/
def calls (closure : Closure) (member : Member) (field : String) : List (Member × String) :=
  (descents field).filterMap fun descent =>
    (closure.related? member descent.1).map fun next => (next, descent.2)

theorem mem_calls :
    (next, rest) ∈ closure.calls member field ↔
      ∃ name, (name, rest) ∈ descents field ∧ closure.related? member name = some next := by
  simp only [calls, List.mem_filterMap, Option.map_eq_some_iff]
  constructor
  · rintro ⟨⟨name, _⟩, hd, _, hr, heq⟩
    obtain ⟨rfl, rfl⟩ := Prod.mk.inj heq
    exact ⟨name, hd, hr⟩
  · rintro ⟨name, hd, hr⟩
    exact ⟨(name, rest), hd, next, hr, rfl⟩

/-- The search makes its calls one after the other, up to the first that finds an owner. -/
theorem resolve?_eq_calls (closure : Closure) (member : Member) (field : String) :
    closure.resolve? member field =
      if member.entity.isSearchable field then some ⟨member, field⟩
      else (closure.calls member field).findSome? fun call => closure.resolve? call.1 call.2 := by
  rw [resolve?_eq, calls, ← List.head?_filterMap, ← List.head?_filterMap, List.filterMap_filterMap]
  simp only [Option.bind_map, Function.comp_def]

/-- Each nested call is on a member of the closure, under a path longer by one name. -/
theorem length_path_of_mem_calls (h : (next, rest) ∈ closure.calls member field) :
    next ∈ closure.members ∧ next.path.length = member.path.length + 1 := by
  obtain ⟨name, -, hr⟩ := mem_calls.1 h
  exact (length_path_of_related?_eq_some hr).symm

/-- The calls are on members under different paths. -/
theorem pairwise_calls (closure : Closure) (member : Member) (field : String) :
    (closure.calls member field).Pairwise fun first second => first.1.path ≠ second.1.path := by
  refine List.Pairwise.filterMap _ ?_ (pairwise_ne_descents field)
  intro first second hne call hcall call' hcall' heq
  obtain ⟨next, hr, rfl⟩ := Option.map_eq_some_iff.1 hcall
  obtain ⟨next', hr', rfl⟩ := Option.map_eq_some_iff.1 hcall'
  simp only [path_of_related?_eq_some hr, path_of_related?_eq_some hr'] at heq
  exact hne (List.singleton_injective (List.append_cancel_left heq))

/-! ## The ways down -/

/-- A way down from a member with a name to another member with what is left of the name, along the
relations of the given names. -/
inductive Descends (closure : Closure) :
    List String → Member → String → Member → String → Prop where
  /-- The search is at each member where it begins. -/
  | here {member : Member} {field : String} : Descends closure [] member field member field
  /-- The name is that of a joined relation too. -/
  | same {names : List String} {member next target : Member} {field residual : String}
      (hr : closure.related? member field = some next)
      (h : Descends closure names next field target residual) :
      Descends closure (field :: names) member field target residual
  /-- The name starts with that of a joined relation. -/
  | along {names : List String} {member next target : Member} {name rest residual : String}
      (hr : closure.related? member name = some next)
      (h : Descends closure names next rest target residual) :
      Descends closure (name :: names) member (name ++ "_" ++ rest) target residual

namespace Descends

theorem nil_iff :
    closure.Descends [] member field target residual ↔ target = member ∧ residual = field := by
  constructor
  · intro h
    cases h with
    | here => exact ⟨rfl, rfl⟩
  · rintro ⟨rfl, rfl⟩
    exact .here

/-- A longer way down begins with a nested call. -/
theorem cons_iff :
    closure.Descends (name :: names) member field target residual ↔
      ∃ rest next, (name, rest) ∈ descents field ∧ closure.related? member name = some next ∧
        closure.Descends names next rest target residual := by
  constructor
  · intro h
    cases h with
    | @same _ _ next _ _ _ hr h => exact ⟨name, next, mem_descents.2 (.inl ⟨rfl, rfl⟩), hr, h⟩
    | @along _ _ next _ _ rest _ hr h =>
      exact ⟨rest, next, mem_descents.2 (.inr rfl), hr, h⟩
  · rintro ⟨rest, next, hd, hr, h⟩
    rcases mem_descents.1 hd with ⟨rfl, rfl⟩ | rfl
    · exact .same hr h
    · exact .along hr h

/-- The way down is what the path of the other member has more. -/
theorem path_eq (h : closure.Descends names member field target residual) :
    target.path = member.path ++ names := by
  induction h with
  | here => rw [List.append_nil]
  | same hr _ ih => rw [ih, path_of_related?_eq_some hr, List.append_assoc, List.singleton_append]
  | along hr _ ih => rw [ih, path_of_related?_eq_some hr, List.append_assoc, List.singleton_append]

/-- A way down along any relation ends at a member of the closure. -/
theorem mem_members (h : closure.Descends (name :: names) member field target residual) :
    target ∈ closure.members := by
  induction names generalizing name member field with
  | nil =>
    obtain ⟨rest, next, -, hr, h⟩ := cons_iff.1 h
    obtain ⟨rfl, -⟩ := nil_iff.1 h
    exact (length_path_of_related?_eq_some hr).2
  | cons second names ih =>
    obtain ⟨rest, next, -, -, h⟩ := cons_iff.1 h
    exact ih h

/-- No way down is longer than what the height of the closure leaves below the first member. -/
theorem length_le (h : closure.Descends names member field target residual) :
    names.length ≤ closure.height - member.path.length := by
  cases names with
  | nil => exact Nat.zero_le _
  | cons name names =>
    have hheight := length_path_le_height h.mem_members
    rw [h.path_eq, List.length_append] at hheight
    omega

/-- The same relations lead to the same member and leave the same name for it. -/
theorem eq_of_names (h : closure.Descends names member field target residual)
    (h' : closure.Descends names member field target' residual') :
    target = target' ∧ residual = residual' := by
  induction names generalizing member field with
  | nil =>
    obtain ⟨rfl, rfl⟩ := nil_iff.1 h
    obtain ⟨rfl, rfl⟩ := nil_iff.1 h'
    exact ⟨rfl, rfl⟩
  | cons name names ih =>
    obtain ⟨rest, next, hd, hr, h⟩ := cons_iff.1 h
    obtain ⟨rest', next', hd', hr', h'⟩ := cons_iff.1 h'
    obtain rfl := eq_of_mem_descents hd hd'
    obtain rfl := Option.some.inj (hr.symm.trans hr')
    exact ih h h'

/-- **Only one way down ends at a path**, and it leaves one name for the member there. -/
theorem unique (h : closure.Descends names member field target residual)
    (h' : closure.Descends names' member field target' residual')
    (hpath : target.path = target'.path) :
    names = names' ∧ target = target' ∧ residual = residual' := by
  rw [h.path_eq, h'.path_eq] at hpath
  obtain rfl := List.append_cancel_left hpath
  exact ⟨rfl, h.eq_of_names h'⟩

end Descends

/-- The owners that a name may stand for are those at the end of a way down. -/
theorem resolves_iff_exists_descends :
    closure.Resolves member field owner ↔
      (∃ names, closure.Descends names member field owner.member owner.field) ∧
        owner.member.entity.isSearchable owner.field = true := by
  constructor
  · intro h
    refine ⟨?_, h.isSearchable⟩
    induction h with
    | own => exact ⟨[], .here⟩
    | same hr _ ih =>
      obtain ⟨names, h⟩ := ih
      exact ⟨_, .same hr h⟩
    | along hr _ ih =>
      obtain ⟨names, h⟩ := ih
      exact ⟨_, .along hr h⟩
  · rintro ⟨⟨names, h⟩, hown⟩
    obtain ⟨target, residual⟩ := owner
    dsimp only at h hown
    induction h with
    | here => exact .own hown
    | same hr _ ih => exact .same hr (ih hown)
    | along hr _ ih => exact .along hr (ih hown)

/-! ## The search within a depth -/

/-- What a search found, and the calls that it was made of, itself included. -/
structure Run where
  found : Option FieldOwner
  visited : List (Member × String)
  deriving DecidableEq

/-- One search after the other, up to the first that finds an owner. -/
def Run.firstOf (search : Member × String → Option Run) : List (Member × String) → Option Run
  | [] => some ⟨none, []⟩
  | call :: calls => do
    let run ← search call
    if run.found.isSome then return run
    let later ← Run.firstOf search calls
    return ⟨later.found, run.visited ++ later.visited⟩

/-- The search with its calls nested no deeper than the given number. None if it was cut off. -/
def searchWithin (closure : Closure) : ℕ → Member × String → Option Run
  | 0, _ => none
  | depth + 1, call =>
    if call.1.entity.isSearchable call.2 then some ⟨some ⟨call.1, call.2⟩, [call]⟩
    else do
      let run ← Run.firstOf (closure.searchWithin depth) (closure.calls call.1 call.2)
      return ⟨run.found, call :: run.visited⟩

/-- The run answers a list of calls: it finds what the first of them to find anything finds, goes
down from them only, and visits no path twice. -/
structure Answers (closure : Closure) (calls : List (Member × String)) (run : Run) : Prop where
  found : run.found = calls.findSome? fun call => closure.resolve? call.1 call.2
  descends : ∀ visit ∈ run.visited, ∃ call ∈ calls, ∃ names,
    closure.Descends names call.1 call.2 visit.1 visit.2
  nodup : (run.visited.map fun visit => visit.1.path).Nodup

variable {search : Member × String → Option Run} {call : Member × String}
  {calls : List (Member × String)} {depth : ℕ} {run later : Run}

theorem Answers.nil : closure.Answers [] ⟨none, []⟩ where
  found := rfl
  descends := by simp
  nodup := List.nodup_nil

/-- The first call found an owner, and the others are not made. -/
theorem Answers.cons_of_isSome (h : closure.Answers [call] run) (hfound : run.found.isSome) :
    closure.Answers (call :: calls) run where
  found := by
    have hcall := h.found
    rw [List.findSome?_singleton] at hcall
    obtain ⟨owner, howner⟩ := Option.isSome_iff_exists.1 hfound
    rw [List.findSome?_cons, ← hcall, howner]
  descends visit hvisit := by
    obtain ⟨_, hmem, hway⟩ := h.descends visit hvisit
    exact ⟨call, List.mem_cons_self, List.mem_singleton.1 hmem ▸ hway⟩
  nodup := h.nodup

/-- Nothing was found by the first call, and the others are made. No path is visited both times,
for one call would have to begin at the path of the other. -/
theorem Answers.cons_of_none (h : closure.Answers [call] run) (hfound : run.found = none)
    (hlater : closure.Answers calls later)
    (hlength : ∀ other ∈ calls, other.1.path.length = call.1.path.length)
    (hne : ∀ other ∈ calls, call.1.path ≠ other.1.path) :
    closure.Answers (call :: calls) ⟨later.found, run.visited ++ later.visited⟩ where
  found := by
    have hcall := h.found
    rw [List.findSome?_singleton, hfound] at hcall
    rw [List.findSome?_cons, ← hcall]
    exact hlater.found
  descends visit hvisit := by
    rcases List.mem_append.1 hvisit with hvisit | hvisit
    · obtain ⟨_, hmem, hway⟩ := h.descends visit hvisit
      exact ⟨call, List.mem_cons_self, List.mem_singleton.1 hmem ▸ hway⟩
    · obtain ⟨other, hmem, hway⟩ := hlater.descends visit hvisit
      exact ⟨other, List.mem_cons_of_mem _ hmem, hway⟩
  nodup := by
    rw [List.map_append, List.nodup_append']
    refine ⟨h.nodup, hlater.nodup, fun path hpath hpath' => ?_⟩
    obtain ⟨visit, hvisit, rfl⟩ := List.mem_map.1 hpath
    obtain ⟨visit', hvisit', heq⟩ := List.mem_map.1 hpath'
    obtain ⟨_, hmem, names, hway⟩ := h.descends visit hvisit
    obtain rfl := List.mem_singleton.1 hmem
    obtain ⟨other, hother, names', hway'⟩ := hlater.descends visit' hvisit'
    rw [hway.path_eq, hway'.path_eq] at heq
    exact hne other hother (List.append_inj_left heq (hlength other hother)).symm

theorem exists_answers_firstOf {length : ℕ}
    (hsearch : ∀ call ∈ calls, ∃ run, search call = some run ∧ closure.Answers [call] run)
    (hlength : ∀ call ∈ calls, call.1.path.length = length)
    (hpairwise : calls.Pairwise fun first second => first.1.path ≠ second.1.path) :
    ∃ run, Run.firstOf search calls = some run ∧ closure.Answers calls run := by
  induction calls with
  | nil => exact ⟨_, rfl, .nil⟩
  | cons call calls ih =>
    rw [List.forall_mem_cons] at hsearch hlength
    rw [List.pairwise_cons] at hpairwise
    obtain ⟨run, hrun, hanswers⟩ := hsearch.1
    obtain ⟨later, hlater, hrest⟩ := ih hsearch.2 hlength.2 hpairwise.2
    cases hfound : run.found with
    | some owner =>
      refine ⟨run, ?_, hanswers.cons_of_isSome (by simp [hfound])⟩
      simp [Run.firstOf, hrun, hfound]
    | none =>
      refine ⟨_, ?_, hanswers.cons_of_none hfound hrest (fun other hother => ?_) hpairwise.1⟩
      · simp [Run.firstOf, hrun, hfound, hlater]
      · rw [hlength.2 other hother, hlength.1]

/-- A member that owns the name is visited alone. -/
theorem Answers.own (hown : call.1.entity.isSearchable call.2 = true) :
    closure.Answers [call] ⟨some ⟨call.1, call.2⟩, [call]⟩ where
  found := by rw [List.findSome?_singleton, resolve?_of_isSearchable hown]
  descends visit hvisit := by
    obtain rfl := List.mem_singleton.1 hvisit
    exact ⟨visit, List.mem_singleton_self visit, [], .here⟩
  nodup := List.nodup_singleton _

/-- The nested calls answer for a member that does not own the name. -/
theorem Answers.of_calls (hown : call.1.entity.isSearchable call.2 = false)
    (h : closure.Answers (closure.calls call.1 call.2) run) :
    closure.Answers [call] ⟨run.found, call :: run.visited⟩ where
  found := by
    rw [List.findSome?_singleton, resolve?_eq_calls, if_neg (by simp [hown])]
    exact h.found
  descends visit hvisit := by
    refine ⟨call, List.mem_singleton_self call, ?_⟩
    rcases List.mem_cons.1 hvisit with rfl | hvisit
    · exact ⟨[], .here⟩
    · obtain ⟨⟨next, rest⟩, hmem, names, hway⟩ := h.descends visit hvisit
      obtain ⟨name, hd, hr⟩ := mem_calls.1 hmem
      exact ⟨name :: names, Descends.cons_iff.2 ⟨rest, next, hd, hr, hway⟩⟩
  nodup := by
    rw [List.map_cons, List.nodup_cons]
    refine ⟨fun hpath => ?_, h.nodup⟩
    obtain ⟨visit, hvisit, heq⟩ := List.mem_map.1 hpath
    obtain ⟨⟨next, rest⟩, hmem, names, hway⟩ := h.descends visit hvisit
    have hlength := congrArg List.length heq
    rw [hway.path_eq, List.length_append, (length_path_of_mem_calls hmem).2] at hlength
    omega

/-- **Within the height of the closure the search is never cut off.** -/
theorem exists_answers (h : closure.height - call.1.path.length < depth) :
    ∃ run, closure.searchWithin depth call = some run ∧ closure.Answers [call] run := by
  induction depth generalizing call with
  | zero => exact absurd h (Nat.not_lt_zero _)
  | succ depth ih =>
    by_cases hown : call.1.entity.isSearchable call.2 = true
    · exact ⟨_, if_pos hown, .own hown⟩
    · have hnested : ∀ next ∈ closure.calls call.1 call.2,
          ∃ run, closure.searchWithin depth next = some run ∧ closure.Answers [next] run := by
        intro next hmem
        obtain ⟨hmembers, hlength⟩ := length_path_of_mem_calls hmem
        have hheight := length_path_le_height hmembers
        exact ih (by omega)
      obtain ⟨run, hrun, hanswers⟩ := exists_answers_firstOf hnested
        (fun next hmem => (length_path_of_mem_calls hmem).2) (pairwise_calls _ _ _)
      refine ⟨_, ?_, hanswers.of_calls (by simpa using hown)⟩
      simp [searchWithin, hown, hrun]

/-! ## The search as a whole -/

/-- How the search for an owner goes down from a member with a name. -/
structure SearchEnds (closure : Closure) (member : Member) (field : String) : Prop where
  /-- A member that does not own the name hands the search to its nested calls. -/
  hands_on : closure.resolve? member field =
    if member.entity.isSearchable field then some ⟨member, field⟩
    else (closure.calls member field).findSome? fun call => closure.resolve? call.1 call.2
  /-- The nested calls are on members of the closure with longer paths. -/
  longer : ∀ next rest, (next, rest) ∈ closure.calls member field →
    next ∈ closure.members ∧ member.path.length < next.path.length
  /-- Two ways down to one path are the same and leave the same name. -/
  unique : ∀ names names' target target' residual residual',
    closure.Descends names member field target residual →
    closure.Descends names' member field target' residual' → target.path = target'.path →
      names = names' ∧ target = target' ∧ residual = residual'
  /-- The owners that the name may stand for are at the ends of ways down. -/
  resolves_iff : ∀ owner, closure.Resolves member field owner ↔
    (∃ names, closure.Descends names member field owner.member owner.field) ∧
      owner.member.entity.isSearchable owner.field = true
  /-- No way down is longer than what the longest path leaves for it. -/
  bounded : ∀ names target residual, closure.Descends names member field target residual →
    names.length ≤ closure.height - member.path.length
  /-- Calls nested no deeper than that suffice. They go down from the first one, visit no path
  twice and find what the search finds. -/
  ends : ∀ depth, closure.height - member.path.length < depth →
    ∃ visited, closure.searchWithin depth (member, field) =
        some ⟨closure.resolve? member field, visited⟩ ∧
      (visited.map fun visit => visit.1.path).Nodup ∧
      ∀ visit ∈ visited, ∃ names, closure.Descends names member field visit.1 visit.2

/-- **The search ends within the height of the closure and visits no member twice**, whatever the
closure, the first member and the name. -/
theorem searchEnds (closure : Closure) (member : Member) (field : String) :
    closure.SearchEnds member field where
  hands_on := resolve?_eq_calls closure member field
  longer next rest hmem := by
    obtain ⟨hmembers, hlength⟩ := length_path_of_mem_calls hmem
    exact ⟨hmembers, by omega⟩
  unique _ _ _ _ _ _ h h' hpath := h.unique h' hpath
  resolves_iff _ := resolves_iff_exists_descends
  bounded _ _ _ h := h.length_le
  ends depth hdepth := by
    obtain ⟨⟨found, visited⟩, hrun, hanswers⟩ :
        ∃ run, closure.searchWithin depth (member, field) = some run ∧
          closure.Answers [(member, field)] run := exists_answers hdepth
    have hfound : found = closure.resolve? member field := by
      simpa only [List.findSome?_singleton] using hanswers.found
    refine ⟨visited, hfound ▸ hrun, hanswers.nodup, fun visit hvisit => ?_⟩
    obtain ⟨call, hmem, hway⟩ := hanswers.descends visit hvisit
    obtain rfl := List.mem_singleton.1 hmem
    exact hway

end Closure

/-! ## Paths that repeat and paths that are skipped -/

/-- Plants with one path twice and with a gap in the paths. -/
def Hedge.ragged : Closure :=
  { graph.closure with
    joined :=
      [⟨"plants_1", plant, ["other"]⟩, ⟨"plants_2", plant, ["other"]⟩,
       ⟨"plants_3", plant, ["other", "other", "other"]⟩] }

/-- A member of no closure is searched from as well. The name stays the same on the way down, and
one call below the first is enough for a longest path of three names. -/
example : (Hedge.ragged.searchWithin 2 (⟨"leaf", Hedge.plant, ["other", "other"]⟩, "other")).map
    (fun run => (run.found, run.visited.map fun visit => (visit.1.tableAlias, visit.2))) =
      some (none, [("leaf", "other"), ("plants_3", "other")]) := by
  decide +kernel

end RequestPlan
