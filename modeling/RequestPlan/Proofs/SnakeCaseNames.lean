import RequestPlan.Catalogue.ImpliedRelations
import RequestPlan.Entity
import RequestPlan.Proofs.CapitalisedWords

/-!
# Names in snake case

In ASCII, the snake-case form of a name is the name in lower case without its blanks, and with an
underscore between two parts where the second one begins with a letter. It has itself for a
snake-case form, so that names which are in snake case are left as they are.

* `Text.toList_snakeCase`: the snake-case form of a name in ASCII;
* `Text.IsSnakeCase`: names in snake case;
* `Text.ComesApart`, `Text.joint`: where a name comes apart, and what is put in between;
* `Text.SnakeCased`, `LeavesSnakeCase`: what there is to say about the snake-case form of a name,
  and about the names that are made by it;
* `Text.snakeCased`: it holds of every name in ASCII.
-/

namespace RequestPlan

namespace Text

variable {text before after : List Char} {c : Char} {name : String}

/-! ## Underscores -/

theorem underscored_cons (c : Char) (rest : List Char) :
    underscored (c :: rest) = (if c.isUpper then ['_', c] else [c]) ++ underscored rest :=
  List.flatMap_cons

theorem mem_underscored (h : c ∈ underscored text) : c = '_' ∨ c ∈ text := by
  obtain ⟨d, hd, hc⟩ := List.mem_flatMap.1 h
  have hcases : c = '_' ∨ c = d := by
    split at hc
    · simpa using hc
    · exact .inr (by simpa using hc)
  rcases hcases with rfl | rfl
  · exact .inl rfl
  · exact .inr hd

theorem mem_separated (h : c ∈ separated text) : c = '_' ∨ c ∈ text := by
  cases text with
  | nil => exact .inr h
  | cons d rest =>
    rcases List.mem_cons.1 h with rfl | h
    · exact .inr List.mem_cons_self
    · exact (mem_underscored h).imp_right (List.mem_cons_of_mem d)

theorem filter_underscored (text : List Char) :
    (underscored text).filter (· ≠ '_') = text.filter (· ≠ '_') := by
  induction text with
  | nil => rfl
  | cons c rest ih =>
    have hc : (if c.isUpper then ['_', c] else [c]).filter (· ≠ '_') = [c].filter (· ≠ '_') := by
      split <;> simp
    rw [underscored_cons, List.filter_append, hc, ih, ← List.filter_append, List.singleton_append]

theorem filter_separated (text : List Char) :
    (separated text).filter (· ≠ '_') = text.filter (· ≠ '_') := by
  cases text with
  | nil => rfl
  | cons c rest => rw [separated, List.filter_cons, filter_underscored, List.filter_cons]

theorem underscored_eq_self (h : ∀ c ∈ text, c.isUpper = false) : underscored text = text := by
  induction text with
  | nil => rfl
  | cons c rest ih =>
    obtain ⟨hc, hrest⟩ := List.forall_mem_cons.1 h
    rw [underscored_cons, if_neg (by simp [hc]), ih hrest, List.singleton_append]

/-- Behind another part, a text has one more underscore if it begins with a capital. -/
theorem underscored_eq (text : List Char) :
    underscored text = (if text.head?.any Char.isUpper then ['_'] else []) ++ separated text := by
  cases text with
  | nil => rfl
  | cons c rest => cases hc : c.isUpper <;> simp [underscored_cons, separated, hc]

theorem separated_append (hne : before ≠ []) (after : List Char) :
    separated (before ++ after) = separated before ++ underscored after := by
  obtain ⟨c, rest, rfl⟩ := List.exists_cons_of_ne_nil hne
  simp [separated, underscored]

theorem separated_eq_nil_iff : separated text = [] ↔ text = [] := by
  cases text <;> simp [separated]

/-! ## The snake-case form -/

theorem snakeCase_eq (name : String) :
    snakeCase name = String.ofList (lower (separated (joinedFrom true name.toList))) := by
  rw [snakeCase, flatMap_capitalised_words]

theorem isAscii_separated (h : IsAscii text) : IsAscii (separated (joinedFrom true text)) := by
  intro c hc
  rcases mem_separated hc with rfl | hc
  · decide
  · exact (mem_joinedFrom h hc).1

/-- In ASCII, letter case is changed character by character. -/
theorem toList_snakeCase (h : IsAscii name.toList) :
    (snakeCase name).toList = (separated (joinedFrom true name.toList)).map Char.toLower := by
  rw [snakeCase_eq, String.toList_ofList, lower_of_ascii (isAscii_separated h)]

/-- Only names without words have no snake-case form. -/
theorem snakeCase_eq_empty_iff (h : IsAscii name.toList) :
    snakeCase name = "" ↔ joinedFrom true name.toList = [] := by
  rw [← String.toList_eq_nil_iff, toList_snakeCase h, List.map_eq_nil_iff, separated_eq_nil_iff]

/-- A name in snake case: without blanks and without capitals. -/
structure IsSnakeCase (name : String) : Prop where
  blank : ∀ c ∈ name.toList, isBlank c = false
  capital : ∀ c ∈ name.toList, c.isUpper = false

/-- A text ends where the next one starts if there is a blank between them or the next one starts
with a capital. -/
def ComesApart (before after : String) : Prop :=
  before.toList.getLast?.any isBlank = true ∨
    (after.toList.head?.any fun c => isBlank c || c.isUpper) = true

/-- What stands between two parts: an underscore in front of a letter, unless it came first. -/
def joint (before after : String) : String :=
  if before ≠ "" ∧ after.toList.head?.any Char.isLower = true then "_" else ""

/-- What there is to say about the snake-case form of a name. -/
structure SnakeCased (name : String) : Prop where
  ascii : IsAscii (snakeCase name).toList
  isSnakeCase : IsSnakeCase (snakeCase name)
  letters : (snakeCase name).toList.filter (· ≠ '_') =
    (lower name.toList).filter fun c => !isBlank c && c ≠ '_'
  again : snakeCase (snakeCase name) = snakeCase name
  left_alone : snakeCase name = name ↔ IsSnakeCase name
  blank : (∀ c ∈ name.toList, isBlank c = true) → snakeCase name = ""
  /-- A word with no capital but its first letter is put into lower case. -/
  word : (∀ c ∈ name.toList, isBlank c = false) → (∀ c ∈ name.toList.tail, c.isUpper = false) →
    (snakeCase name).toList = lower name.toList
  /-- All other names come apart, and each part is put into snake case by itself. -/
  parts : ∀ before after, name = before ++ after → ComesApart before after →
    snakeCase name = snakeCase before ++ joint (snakeCase before) (snakeCase after) ++
      snakeCase after

theorem isSnakeCase_snakeCase (h : IsAscii name.toList) : IsSnakeCase (snakeCase name) := by
  have hmem : ∀ c ∈ (snakeCase name).toList, ∃ d, d.toNat < 0x80 ∧ isBlank d = false ∧
      d.toLower = c := by
    intro c hc
    rw [toList_snakeCase h, List.mem_map] at hc
    obtain ⟨d, hd, hc⟩ := hc
    refine ⟨d, isAscii_separated h d hd, ?_, hc⟩
    rcases mem_separated hd with rfl | hd
    · decide
    · exact (mem_joinedFrom h hd).2
  constructor
  · intro c hc
    obtain ⟨d, hd, hblank, rfl⟩ := hmem c hc
    rw [(case_of_ascii hd).2.2, hblank]
  · intro c hc
    obtain ⟨d, hd, -, rfl⟩ := hmem c hc
    exact Char.isUpper_toLower_eq_false d

theorem isAscii_snakeCase (h : IsAscii name.toList) : IsAscii (snakeCase name).toList := by
  rw [toList_snakeCase h]
  intro c hc
  obtain ⟨d, hd, rfl⟩ := List.mem_map.1 hc
  exact (case_of_ascii (isAscii_separated h d hd)).2.1

theorem filter_map_toLower (h : IsAscii text) :
    (text.map Char.toLower).filter (· ≠ '_') = (text.filter (· ≠ '_')).map Char.toLower := by
  rw [List.filter_map]
  refine congrArg _ (List.filter_congr fun c hc => ?_)
  simp [toLower_eq_underscore_iff (h c hc)]

theorem filter_snakeCase (h : IsAscii name.toList) :
    (snakeCase name).toList.filter (· ≠ '_') =
      (lower name.toList).filter fun c => !isBlank c && c ≠ '_' := by
  have hjoined : IsAscii (joinedFrom true name.toList) := fun c hc => (mem_joinedFrom h hc).1
  rw [toList_snakeCase h, filter_map_toLower (isAscii_separated h), filter_separated,
    ← filter_map_toLower hjoined, map_toLower_joinedFrom h, lower_of_ascii h, List.filter_filter]
  refine List.filter_congr fun c _ => ?_
  rw [Bool.and_comm]

theorem toList_snakeCase_of_word (h : IsAscii name.toList)
    (hblank : ∀ c ∈ name.toList, isBlank c = false)
    (hcapital : ∀ c ∈ name.toList.tail, c.isUpper = false) :
    (snakeCase name).toList = lower name.toList := by
  rw [toList_snakeCase h, lower_of_ascii h]
  cases hname : name.toList with
  | nil => rfl
  | cons c rest =>
    rw [hname] at h hblank
    rw [hname, List.tail_cons] at hcapital
    obtain ⟨hc, hrest⟩ := h.cons
    obtain ⟨hcblank, hrestblank⟩ := List.forall_mem_cons.1 hblank
    rw [joinedFrom_of_not_isBlank hcblank, joinedFrom_of_word hrest hrestblank,
      capital_of_ascii hc, if_pos rfl, List.singleton_append, separated,
      underscored_eq_self hcapital, List.map_cons, List.map_cons, Char.toLower_toUpper_eq_toLower]

/-- A name in snake case is its own snake-case form. -/
theorem IsSnakeCase.snakeCase_eq (hname : IsSnakeCase name) (h : IsAscii name.toList) :
    snakeCase name = name := by
  have hword := toList_snakeCase_of_word h hname.blank fun c hc =>
    hname.capital c (List.mem_of_mem_tail hc)
  rw [← String.toList_inj, hword, lower_of_ascii h]
  conv_rhs => rw [← List.map_id name.toList]
  refine List.map_congr_left fun c hc => Char.toLower_eq_of_not_isUpper ?_
  simp [hname.capital c hc]

theorem snakeCase_of_blank (h : IsAscii name.toList)
    (hblank : ∀ c ∈ name.toList, isBlank c = true) : snakeCase name = "" := by
  rw [snakeCase_eq_empty_iff h, ← List.map_eq_nil_iff, map_toLower_joinedFrom h,
    List.filter_eq_nil_iff]
  intro c hc
  obtain ⟨d, hd, rfl⟩ := List.mem_map.1 hc
  simp [(case_of_ascii (h d hd)).2.2, hblank d hd]

/-- The words of two parts are the words of one, then those of the other. -/
theorem ComesApart.joinedFrom_append {before after : String} (hapart : ComesApart before after)
    (h : IsAscii after.toList) :
    joinedFrom true (before.toList ++ after.toList) =
      joinedFrom true before.toList ++ joinedFrom true after.toList := by
  rw [Text.joinedFrom_append]
  congr 1
  cases hlast : before.toList.getLast? with
  | none => rfl
  | some c =>
    cases hc : isBlank c with
    | true => rw [Option.elim_some, hc]
    | false =>
      rw [Option.elim_some, hc]
      refine joinedFrom_false_eq h (hapart.resolve_left ?_)
      simp [hlast, hc]

/-- The first letter of a second part is the one with an underscore in front of it. -/
theorem map_separated_append (hne : before ≠ [])
    (hhead : ∀ c ∈ after.head?, c.isUpper = c.toLower.isLower) :
    (separated (before ++ after)).map Char.toLower =
      (separated before).map Char.toLower ++
        (if ((separated after).map Char.toLower).head?.any Char.isLower then ['_'] else []) ++
        (separated after).map Char.toLower := by
  have hletter : ((separated after).map Char.toLower).head?.any Char.isLower =
      after.head?.any Char.isUpper := by
    cases after with
    | nil => rfl
    | cons c rest => simpa [separated] using (hhead c rfl).symm
  have hjoint : ∀ b : Bool,
      (if b then ['_'] else []).map Char.toLower = if b then ['_'] else [] := by
    decide
  rw [separated_append hne, underscored_eq, hletter, List.map_append, List.map_append, hjoint,
    List.append_assoc]

theorem toList_joint (before after : String) :
    (joint before after).toList =
      if before ≠ "" ∧ after.toList.head?.any Char.isLower = true then ['_'] else [] := by
  unfold joint
  split <;> rfl

theorem snakeCase_append {before after : String} (h : IsAscii (before ++ after).toList)
    (hapart : ComesApart before after) :
    snakeCase (before ++ after) =
      snakeCase before ++ joint (snakeCase before) (snakeCase after) ++ snakeCase after := by
  rw [String.toList_append] at h
  obtain ⟨hbefore, hafter⟩ := List.forall_mem_append.1 h
  have hwhole : (snakeCase (before ++ after)).toList =
      (separated (joinedFrom true before.toList ++ joinedFrom true after.toList)).map
        Char.toLower := by
    rw [toList_snakeCase (by rwa [String.toList_append]), String.toList_append,
      hapart.joinedFrom_append hafter]
  rw [← String.toList_inj, String.toList_append, String.toList_append, toList_joint, hwhole,
    toList_snakeCase hafter]
  have hempty := snakeCase_eq_empty_iff hbefore
  by_cases hnone : joinedFrom true before.toList = []
  · simp [hnone, hempty.2 hnone]
  · rw [map_separated_append hnone (isUpper_head?_joinedFrom hafter), ← toList_snakeCase hbefore]
    simp [mt hempty.1 hnone]

end Text

/-- Names that are made by snake case where none is given: the namespace tag of an entity, and the
relation to it that a foreign key implies. Both are the name of the entity if that is in snake
case. -/
structure LeavesSnakeCase (name : String) : Prop where
  tag : ∀ tableName primaryKey searchable relations tag entity, tag.getD "" = "" →
    Entity.make name tableName primaryKey searchable relations tag = .ok entity →
      entity.tag = Text.snakeCase name ∧ (Text.IsSnakeCase name → entity.tag = name)
  relation : ∀ column, ¬ keyEnding <:+ column.toList ∨ column = "_id" →
    impliedName column name = Text.snakeCase name ∧
      (Text.IsSnakeCase name → impliedName column name = name)

theorem Entity.tag_of_make_eq_ok {name tableName primaryKey : String} {searchable : List String}
    {relations : KeyedList Relation} {tag : Option String} {entity : Entity}
    (h : make name tableName primaryKey searchable relations tag = .ok entity) :
    entity.tag = (tag.filter (· ≠ "")).getD (Text.snakeCase name) := by
  unfold make at h
  split at h
  · cases h
  · rw [← Except.ok.inj h]

theorem leavesSnakeCase {name : String} (h : Text.IsAscii name.toList) : LeavesSnakeCase name where
  tag tableName primaryKey searchable relations tag entity hnone hmake := by
    have htag : entity.tag = Text.snakeCase name := by
      rw [Entity.tag_of_make_eq_ok hmake]
      cases tag with
      | none => rfl
      | some text =>
        obtain rfl : text = "" := hnone
        rfl
    exact ⟨htag, fun hname => htag.trans (hname.snakeCase_eq h)⟩
  relation column hcolumn := by
    have hrelation : impliedName column name = Text.snakeCase name := by
      refine if_neg ?_
      rw [List.isSuffixOf_iff_suffix]
      rintro ⟨hends, hlonger⟩
      rcases hcolumn with hcolumn | rfl
      · exact hcolumn hends
      · exact absurd hlonger (by decide)
    exact ⟨hrelation, fun hname => hrelation.trans (hname.snakeCase_eq h)⟩

/-- **The snake-case form of a name in ASCII is in snake case**: it has the letters of the name in
lower case, is made part by part, and leaves alone what is in snake case. -/
theorem Text.snakeCased {name : String} (h : IsAscii name.toList) :
    SnakeCased name ∧ LeavesSnakeCase name := by
  refine ⟨?_, leavesSnakeCase h⟩
  constructor
  case ascii => exact isAscii_snakeCase h
  case isSnakeCase => exact isSnakeCase_snakeCase h
  case letters => exact filter_snakeCase h
  case again => exact (isSnakeCase_snakeCase h).snakeCase_eq (isAscii_snakeCase h)
  case left_alone =>
    exact ⟨fun hsame => hsame ▸ isSnakeCase_snakeCase h, fun hname => hname.snakeCase_eq h⟩
  case blank => exact snakeCase_of_blank h
  case word => exact toList_snakeCase_of_word h
  case parts =>
    rintro before after rfl hapart
    exact snakeCase_append h hapart

/-- Words that start with digits, underscores and single letters, and runs of capitals. -/
theorem Text.snakeCased_mixed :
    IsAscii " 2nd _HTTPServer\tv2\x1fx y".toList ∧
      snakeCase " 2nd _HTTPServer\tv2\x1fx y" = "2nd__h_t_t_p_server_v2_x_y" ∧
      SnakeCased " 2nd _HTTPServer\tv2\x1fx y" ∧
      LeavesSnakeCase " 2nd _HTTPServer\tv2\x1fx y" := by
  have hascii : IsAscii " 2nd _HTTPServer\tv2\x1fx y".toList := by decide +kernel
  have hmixed := snakeCased hascii
  exact ⟨hascii, by decide +kernel, hmixed.1, hmixed.2⟩

/-- Beyond ASCII, a name without blanks and capitals need not be left alone: its first letter may
have two letters for a capital. -/
example : Text.snakeCase "ß" = "s_s" := by decide +kernel

end RequestPlan
