import RequestPlan.Proofs.CompileOutcome
import RequestPlan.Proofs.Listing

/-!
# The clauses of an order

The fields to order by are given as a list, in one text or in several, and each entry of it has a
clause or none of its own. So the clauses of two lists given together are those of the first, then
those of the second, all in the direction that the last word on it asks for.

* `Text.IsPlainLetter`, `Text.lower_eq_iff`: words that are the lower case of ASCII spellings only;
* `RawValue.EndsIn`, `RowOrder.IsDescending`, `RowOrder.exists_direction_iff`: the direction;
* `RowOrder.clauseOf?`, `RowOrder.clausesOf_eq`: the clause of an entry, and of all entries;
* `RowOrder.OrdersByFields`, `RowOrder.AppendsFields`: the order of control parameters, and of two
  lists of fields together;
* `RowOrder.composes_of_isTextual`: orders are put together entry by entry.
-/

namespace RequestPlan

/-! ## Words up to letter case -/

namespace Text

open LetterCase

/-- Beyond ASCII, the only capital with a lower-case form in ASCII is the Kelvin sign. -/
theorem shift_toLower : ∀ run ∈ LetterCase.toLower,
    0x80 ≤ run.first + run.shift ∨ run.first = run.last ∧ run.first + run.shift = 0x6B := by
  decide +kernel

/-- A lower-case letter of ASCII other than "k", so that it is the lower-case form of its two ASCII
cases only. -/
structure IsPlainLetter (c : Char) : Prop where
  low : 0x61 ≤ c.toNat
  high : c.toNat ≤ 0x7A
  ne_k : c.toNat ≠ 0x6B

theorem toNat_ofNat (n : ℕ) : (Char.ofNat n).toNat = n ∨ (Char.ofNat n).toNat = 0 := by
  by_cases h : n.isValidChar
  · exact .inl (congrArg Char.toNat (dif_pos h))
  · exact .inr (congrArg Char.toNat (dif_neg h))

theorem not_isPlainLetter_of_not_ascii {c : Char} (hc : ¬ c.toNat < 0x80) : ¬ IsPlainLetter c :=
  fun h => hc (Nat.lt_of_le_of_lt h.high (by decide))

theorem not_isPlainLetter_shifted {c : Char} {run : Run} (hrun : run ∈ LetterCase.toLower)
    (hcovers : run.covers c.toNat = true) : ¬ IsPlainLetter (shifted c run.shift) := by
  rintro ⟨hlow, hhigh, hk⟩
  simp only [Run.covers, Bool.and_eq_true, decide_eq_true_eq] at hcovers
  have hshift := shift_toLower run hrun
  rcases toNat_ofNat (c.toNat + run.shift).toNat with heq | heq <;>
    rw [shifted, heq] at hlow hhigh hk <;> omega

/-- The lower-case form of a character beyond ASCII has more to it than plain letters. -/
theorem exists_not_isPlainLetter {c : Char} (hc : ¬ c.toNat < 0x80) :
    ∃ d ∈ lowerChar c, ¬ IsPlainLetter d := by
  unfold lowerChar
  rw [if_neg hc]
  split
  · exact ⟨'\u0307', by simp, not_isPlainLetter_of_not_ascii (by decide)⟩
  · split
    · next run hrun =>
      have hcovers : run.covers c.toNat = true := by simpa using List.find?_some hrun
      exact ⟨_, List.mem_singleton_self _,
        not_isPlainLetter_shifted (List.mem_of_find?_eq_some hrun) hcovers⟩
    · exact ⟨c, List.mem_singleton_self c, not_isPlainLetter_of_not_ascii hc⟩

theorem exists_not_isPlainLetter_lowerAfter {c : Char} (hc : ¬ c.toNat < 0x80)
    (before text : List Char) : ∃ d ∈ lowerAfter before (c :: text), ¬ IsPlainLetter d := by
  by_cases hsigma : c = 'Σ'
  · rw [lowerAfter, if_pos hsigma]
    split
    · exact ⟨'ς', by simp, not_isPlainLetter_of_not_ascii (by decide)⟩
    · exact ⟨'σ', by simp, not_isPlainLetter_of_not_ascii (by decide)⟩
  · obtain ⟨d, hd, hplain⟩ := exists_not_isPlainLetter hc
    rw [lowerAfter, if_neg hsigma]
    exact ⟨d, List.mem_append_left _ hd, hplain⟩

theorem toLower_of_not_ascii {c : Char} (hc : ¬ c.toNat < 0x80) : c.toLower = c := by
  refine dif_neg fun h => hc ?_
  have hle : c.toNat ≤ 90 := h.2
  omega

/-- A word of plain letters is the lower-case form of its spellings in ASCII and of no other
text. -/
theorem lower_eq_iff {text word : List Char} (hword : ∀ c ∈ word, IsPlainLetter c) :
    lower text = word ↔ text.map Char.toLower = word := by
  suffices ∀ before, lowerAfter before text = word ↔ text.map Char.toLower = word from this []
  induction text generalizing word with
  | nil => simp [lowerAfter]
  | cons c text ih =>
    intro before
    by_cases hc : c.toNat < 0x80
    · have hsigma : c ≠ 'Σ' := by
        rintro rfl
        exact absurd hc (by decide)
      rw [lowerAfter, if_neg hsigma, lowerChar_of_ascii hc, List.map_cons, List.singleton_append]
      cases word with
      | nil => simp
      | cons d word =>
        rw [List.cons.injEq, List.cons.injEq,
          ih (fun e he => hword e (List.mem_cons_of_mem d he)) (c :: before)]
    · -- Neither side can hold: what such a character becomes is no part of a word of plain letters.
      constructor
      · intro h
        obtain ⟨d, hd, hplain⟩ := exists_not_isPlainLetter_lowerAfter hc before text
        exact absurd (hword d (h ▸ hd)) hplain
      · intro h
        have hmem : c.toLower ∈ word := by simp [← h]
        rw [toLower_of_not_ascii hc] at hmem
        exact absurd (hword c hmem) (not_isPlainLetter_of_not_ascii hc)

end Text

/-! ## The direction -/

namespace RawValue

/-- The text is the last one given for a parameter. -/
def EndsIn (value : RawValue) (text : String) : Prop :=
  value = .text text ∨ ∃ before, value = .list (before ++ [.text text])

theorem latest_eq_text_iff {value : RawValue} {text : String} :
    value.latest = .text text ↔ value.EndsIn text := by
  cases value with
  | list values =>
    simp only [latest, EndsIn, RawValue.list.injEq, reduceCtorEq, false_or]
    rw [← List.getLast?_eq_some_iff]
    cases values.getLast? <;> simp
  | text | int | bool | null => simp [latest, EndsIn]

theorem joined_map_text (texts : List String) :
    (RawValue.list (texts.map .text)).joined = ",".intercalate texts := by
  have hshown : shown ∘ text = id := rfl
  rw [joined, List.map_map, hshown, List.map_id]

end RawValue

namespace RowOrder

/-- The word "desc" up to letter case. -/
def IsDescending (text : String) : Prop :=
  text.toList.map Char.toLower = "desc".toList

instance (text : String) : Decidable (IsDescending text) :=
  inferInstanceAs (Decidable (text.toList.map Char.toLower = "desc".toList))

variable {v : Vocabulary} {closure : Closure} {control : KeyedList RawValue}
  {d : OrderDirection}

theorem isPlainLetter_of_mem_desc : ∀ c ∈ "desc".toList, Text.IsPlainLetter c := by
  intro c hc
  have hletters : c = 'd' ∨ c = 'e' ∨ c = 's' ∨ c = 'c' := by simpa using hc
  rcases hletters with rfl | rfl | rfl | rfl <;> constructor <;> decide

theorem ofRaw_text (text : String) :
    OrderDirection.ofRaw (.text text) =
      .ok (if IsDescending text then .descending else .ascending) := by
  exact congrArg Except.ok (if_congr (Text.lower_eq_iff isPlainLetter_of_mem_desc) rfl rfl)

/-- A direction that is given in texts is the one that the last of them asks for. -/
theorem exists_direction_iff
    (h : ∀ value, control.get? v.directionKey = some value → value.IsTextual) :
    ∃ d, direction v control = .ok d ∧
      (d = .descending ↔ ∃ value text, control.get? v.directionKey = some value ∧
        value.EndsIn text ∧ IsDescending text) := by
  unfold direction
  cases hget : control.get? v.directionKey with
  | none => exact ⟨.ascending, rfl, by simp⟩
  | some value =>
    simp only [Option.elim_some, Option.some.injEq, ← RawValue.latest_eq_text_iff]
    rcases RawValue.latest_of_isTextual (h value hget) with hlatest | ⟨text, hlatest⟩
    · exact ⟨.ascending, by rw [hlatest]; rfl, by simp [hlatest]⟩
    · refine ⟨_, by rw [hlatest]; exact ofRaw_text text, ?_⟩
      simp [hlatest]

/-! ## The clauses -/

/-- The clause of an entry in a list of fields: the owner that the trimmed entry stands for, unless
the entry is blank or stands for none. -/
def clauseOf? (closure : Closure) (direction : OrderDirection) (entry : List Char) :
    Option OrderClause :=
  if Text.trim entry = [] then none
  else
    (closure.resolve? closure.root (String.ofList (Text.trim entry))).map fun owner =>
      ⟨owner.member.tableAlias, owner.field, direction⟩

/-- The clauses of all entries of a list of fields. -/
def clausesOfEntries (closure : Closure) (direction : OrderDirection) (fields : String) :
    List OrderClause :=
  (fields.toList.splitOn ',').filterMap (clauseOf? closure direction)

theorem clausesOf_eq (closure : Closure) (direction : OrderDirection) (fields : String) :
    clausesOf closure direction fields = clausesOfEntries closure direction fields := by
  rw [clausesOf, Text.entries, List.filterMap_map, List.filterMap_filter, List.filterMap_map]
  unfold clausesOfEntries
  congr 1
  funext entry
  by_cases hblank : Text.trim entry = [] <;> simp [clauseOf?, hblank]

theorem clausesOf_joined (closure : Closure) (direction : OrderDirection) (texts : List String) :
    clausesOf closure direction (RawValue.list (texts.map .text)).joined =
      texts.flatMap (clausesOfEntries closure direction) := by
  have heach : clausesOf closure direction = clausesOfEntries closure direction :=
    funext (clausesOf_eq closure direction)
  rw [RawValue.joined_map_text, clausesOf, Text.entries_intercalate_eq_flatMap,
    List.filterMap_flatMap, ← heach]
  rfl

theorem direction_of_mem_clausesOf {fields : String} {clause : OrderClause}
    (h : clause ∈ clausesOf closure d fields) : clause.direction = d := by
  obtain ⟨name, -, hname⟩ := List.mem_filterMap.1 h
  obtain ⟨owner, -, rfl⟩ := Option.map_eq_some_iff.1 hname
  rfl

theorem ofClauses?_eq_none_iff {clauses : List OrderClause} :
    ofClauses? clauses = none ↔ clauses = [] := by
  unfold ofClauses?
  split <;> simp [*]

theorem ofClauses?_eq_some_iff {clauses others : List OrderClause} {hne : others ≠ []} :
    ofClauses? clauses = some (byFields others hne) ↔ clauses = others := by
  unfold ofClauses?
  split
  · next hnil => simp [hnil, hne.symm]
  · simp

/-- Without a parameter for a random order only the fields and the direction count. -/
theorem ofControl_eq (hrandom : v.randomKey ∉ control.keys) (hd : direction v control = .ok d) :
    ofControl v closure control =
      .ok ((control.get? v.orderKey).elim none fun fields =>
        ofClauses? (clausesOf closure d fields.joined)) := by
  have hnone := KeyedList.get?_eq_none_iff.2 hrandom
  have hconflict : checkConflict v control = .ok () := by
    unfold checkConflict
    rw [hnone]
    cases control.get? v.orderKey <;> rfl
  rw [ofControl, hconflict, ok_bind, KeyedList.contains_eq_isSome, hnone]
  cases control.get? v.orderKey with
  | none => rfl
  | some fields =>
    simp only [hd]
    rfl

/-- The order that control parameters ask for if they ask for no random one. -/
structure OrdersByFields (v : Vocabulary) (closure : Closure) (control : KeyedList RawValue)
    (direction : OrderDirection) : Prop where
  absent : control.get? v.orderKey = none → ofControl v closure control = .ok none
  text : ∀ fields, control.get? v.orderKey = some (.text fields) →
    ofControl v closure control =
      .ok (ofClauses? (clausesOfEntries closure direction fields))
  list : ∀ texts : List String, control.get? v.orderKey = some (.list (texts.map .text)) →
    ofControl v closure control =
      .ok (ofClauses? (texts.flatMap (clausesOfEntries closure direction)))
  /-- If no entry has a clause there is no order, rather than an order without clauses. -/
  none_iff : ∀ fields, control.get? v.orderKey = some fields →
    (ofControl v closure control = .ok none ↔
      ∀ entry ∈ fields.joined.toList.splitOn ',', clauseOf? closure direction entry = none)
  shared : ∀ clauses hne, ofControl v closure control = .ok (some (.byFields clauses hne)) →
    ∀ clause ∈ clauses, clause.direction = direction

theorem ordersByFields (hrandom : v.randomKey ∉ control.keys)
    (hd : direction v control = .ok d) : OrdersByFields v closure control d where
  absent hget := by rw [ofControl_eq hrandom hd, hget, Option.elim_none]
  text fields hget := by
    rw [ofControl_eq hrandom hd, hget, Option.elim_some, clausesOf_eq]
    rfl
  list texts hget := by rw [ofControl_eq hrandom hd, hget, Option.elim_some, clausesOf_joined]
  none_iff fields hget := by
    rw [ofControl_eq hrandom hd, hget, Option.elim_some, Except.ok.injEq, ofClauses?_eq_none_iff,
      clausesOf_eq, clausesOfEntries, List.filterMap_eq_nil_iff]
  shared clauses hne hclauses clause hclause := by
    rw [ofControl_eq hrandom hd, Except.ok.injEq] at hclauses
    cases hget : control.get? v.orderKey with
    | none => simp [hget] at hclauses
    | some fields =>
      rw [hget, Option.elim_some, ofClauses?_eq_some_iff] at hclauses
      exact direction_of_mem_clausesOf (hclauses ▸ hclause)

/-- What is given to order by touches neither of the other two keys. -/
theorem ordersByFields_insert (hkeys : v.orderKey ≠ v.directionKey)
    (hother : v.orderKey ≠ v.randomKey) (hrandom : v.randomKey ∉ control.keys)
    (hd : direction v control = .ok d) (fields : RawValue) :
    OrdersByFields v closure (control.insert v.orderKey fields) d := by
  apply ordersByFields
  · rw [← KeyedList.get?_eq_none_iff, KeyedList.get?_insert, if_neg hother.symm,
      KeyedList.get?_eq_none_iff]
    exact hrandom
  · rw [direction, KeyedList.get?_insert, if_neg hkeys.symm]
    exact hd

/-- Two lists of fields, each by itself and both given together, in one text or in two. -/
structure AppendsFields (v : Vocabulary) (closure : Closure) (control : KeyedList RawValue)
    (direction : OrderDirection) (fields more : String) : Prop where
  fields_alone : ofControl v closure (control.insert v.orderKey (.text fields)) =
    .ok (ofClauses? (clausesOfEntries closure direction fields))
  more_alone : ofControl v closure (control.insert v.orderKey (.text more)) =
    .ok (ofClauses? (clausesOfEntries closure direction more))
  comma : ofControl v closure (control.insert v.orderKey (.text (fields ++ "," ++ more))) =
    .ok (ofClauses? (clausesOfEntries closure direction fields ++
      clausesOfEntries closure direction more))
  repeated : ofControl v closure (control.insert v.orderKey (.list [.text fields, .text more])) =
    .ok (ofClauses? (clausesOfEntries closure direction fields ++
      clausesOfEntries closure direction more))

theorem appendsFields (hkeys : v.orderKey ≠ v.directionKey) (hother : v.orderKey ≠ v.randomKey)
    (hrandom : v.randomKey ∉ control.keys) (hd : direction v control = .ok d)
    (fields more : String) : AppendsFields v closure control d fields more := by
  have horders : ∀ value, OrdersByFields v closure (control.insert v.orderKey value) d :=
    ordersByFields_insert hkeys hother hrandom hd
  have hget : ∀ value, (control.insert v.orderKey value).get? v.orderKey = some value := by
    intro value
    rw [KeyedList.get?_insert, if_pos rfl]
  refine ⟨(horders _).text fields (hget _), (horders _).text more (hget _), ?_, ?_⟩
  · rw [(horders _).text (fields ++ "," ++ more) (hget _)]
    simp only [← clausesOf_eq, clausesOf_append_comma]
  · have hlist := (horders _).list [fields, more] (hget _)
    simpa using hlist

/-- The order that follows from control parameters is put together entry by entry. -/
def Composes (v : Vocabulary) (closure : Closure) (control : KeyedList RawValue) : Prop :=
  ∃ direction : OrderDirection,
    (direction = .descending ↔ ∃ value text, control.get? v.directionKey = some value ∧
      value.EndsIn text ∧ IsDescending text) ∧
    OrdersByFields v closure control direction ∧
    (v.orderKey ≠ v.randomKey → ∀ fields more,
      AppendsFields v closure control direction fields more)

/-- **An order is put together entry by entry**, in the direction that was given last, by control
parameters that carry texts and ask for no random order. -/
theorem composes_of_isTextual (hkeys : v.orderKey ≠ v.directionKey)
    (hrandom : v.randomKey ∉ control.keys) (htext : ∀ value ∈ control.values, value.IsTextual) :
    Composes v closure control := by
  have hdirection : ∀ value, control.get? v.directionKey = some value → value.IsTextual :=
    fun value hvalue => htext value (KeyedList.mem_values_of_get?_eq_some hvalue)
  obtain ⟨d, hd, hdescending⟩ := exists_direction_iff hdirection
  exact ⟨d, hdescending, ordersByFields hrandom hd, fun hother =>
    appendsFields hkeys hother hrandom hd⟩

end RowOrder

/-- Control parameters that give fields to order by twice, and a direction twice. -/
def Forest.ordering : KeyedList RawValue :=
  .ofList
    [("_orderBy", .list [.text "keeper_name,, height ", .text "kind"]),
     ("_page", .text "2"), ("_order", .list [.text "asc", .text "DeSC"])]

theorem RowOrder.composes_forest :
    Vocabulary.conventional.orderKey ≠ Vocabulary.conventional.directionKey ∧
      Vocabulary.conventional.randomKey ∉ Forest.ordering.keys ∧
      (∀ value ∈ Forest.ordering.values, value.IsTextual) ∧
      Composes .conventional Forest.graph.closure Forest.ordering := by
  have hkeys : Vocabulary.conventional.orderKey ≠ Vocabulary.conventional.directionKey := by
    decide
  have hrandom : Vocabulary.conventional.randomKey ∉ Forest.ordering.keys := by decide +kernel
  have htext : ∀ value ∈ Forest.ordering.values, value.IsTextual := by
    have hvalues : Forest.ordering.values =
        [.list [.text "keeper_name,, height ", .text "kind"], .text "2",
         .list [.text "asc", .text "DeSC"]] := by decide +kernel
    simp [hvalues, RawValue.IsTextual]
  exact ⟨hkeys, hrandom, htext, composes_of_isTextual hkeys hrandom htext⟩

/-- A blank entry and a name that stands for nothing leave no gap. -/
example : RowOrder.ofControl .conventional Forest.graph.closure Forest.ordering =
    .ok (some (.byFields
      [⟨"keepers", "name", .descending⟩, ⟨"nodes", "kind", .descending⟩] (by simp))) := by
  decide +kernel

end RequestPlan
