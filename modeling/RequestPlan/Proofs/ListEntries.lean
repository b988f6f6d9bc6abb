import RequestPlan.Proofs.Listing
import RequestPlan.Request

/-!
# The entries of a list

A text is split at its commas, and each piece is an entry without the blanks around it, unless there
is nothing else in it. So the entries of lists are those of each list in turn, whether a comma is
between the lists or a parameter was given several times, and a list that is written from entries
has these entries again.

* `Text.trim_pad`, `Text.trim_eq_nil`: blanks around a text, and texts of blanks;
* `Text.SplitsAtCommas`, `Text.splitsAtCommas`: how every text is split;
* `RawValue.entries_joined`: a list of values has the entries of each of them;
* `Request.JoinsLists`, `Request.readsLists`: both texts and parameters are read in this way.
-/

namespace RequestPlan

namespace Text

variable {text entry : String}

/-- A text of blanks, as it may stand around an entry. -/
def IsBlankText (text : String) : Prop :=
  ∀ c ∈ text.toList, isBlank c = true

/-- Trimming takes off the blanks around a text that neither begins nor ends with one. -/
theorem trim_pad {before word after : List Char} (hbefore : ∀ c ∈ before, isBlank c = true)
    (hafter : ∀ c ∈ after, isBlank c = true) (hword : trim word = word) (hne : word ≠ []) :
    trim (before ++ word ++ after) = word := by
  obtain ⟨hhead, hlast⟩ := trim_eq_self_iff.1 hword
  have hstart : trimStart (before ++ word ++ after) = word ++ after := by
    rw [List.append_assoc, trimStart_append hbefore]
    refine trimStart_eq_self ?_
    rw [List.head?_append_of_ne_nil _ hne]
    exact hhead
  have hreverse : ∀ c ∈ after.reverse, isBlank c = true := by simpa using hafter
  rw [← List.head?_reverse] at hlast
  rw [trim, hstart, trimEnd, List.reverse_append, trimStart_append hreverse,
    trimStart_eq_self hlast, List.reverse_reverse]

theorem trim_eq_nil {text : List Char} (h : ∀ c ∈ text, isBlank c = true) : trim text = [] := by
  have hstart : trimStart (text ++ []) = trimStart [] := trimStart_append h
  rw [List.append_nil] at hstart
  rw [trim, hstart]
  rfl

/-- A text without a comma is one piece. -/
theorem entries_of_comma_not_mem (h : ',' ∉ text.toList) :
    entries text = if trim text.toList = [] then [] else [String.ofList (trim text.toList)] := by
  rw [entries, List.splitOn_eq_singleton h, List.map_singleton]
  split <;> simp [*]

theorem comma_not_mem_of_isBlankText (h : IsBlankText text) : ',' ∉ text.toList := by
  intro hcomma
  exact absurd (h ',' hcomma) (by decide)

/-- How a text is split. The first three laws leave no choice, as every text is made up of pieces
with commas between them. -/
structure SplitsAtCommas (text : String) : Prop where
  append : ∀ more, entries (text ++ "," ++ more) = entries text ++ entries more
  blank : IsBlankText text → entries text = []
  padded : ∀ before entry after, text = before ++ entry ++ after → IsBlankText before →
    IsBlankText after → IsEntry entry → entries text = [entry]
  /-- An entry is not empty, holds no comma and has no blank at either end. -/
  entry : ∀ entry ∈ entries text, entry ≠ "" ∧ ',' ∉ entry.toList ∧
    (∀ c ∈ entry.toList.head?, isBlank c = false) ∧
    ∀ c ∈ entry.toList.getLast?, isBlank c = false
  again : entries (",".intercalate (entries text)) = entries text

/-- **Every text is split at its commas**, whatever blanks there are in it. -/
theorem splitsAtCommas (text : String) : SplitsAtCommas text where
  append := entries_append_comma text
  blank h := by
    rw [entries_of_comma_not_mem (comma_not_mem_of_isBlankText h), if_pos (trim_eq_nil h)]
  padded before entry after heq hbefore hafter hentry := by
    subst heq
    have htrim : trim (before ++ entry ++ after).toList = entry.toList := by
      rw [String.toList_append, String.toList_append]
      refine trim_pad hbefore hafter hentry.trimmed ?_
      exact fun hnil => hentry.ne_empty (String.toList_eq_nil_iff.1 hnil)
    have hcomma : ',' ∉ (before ++ entry ++ after).toList := by
      simp only [String.toList_append, List.mem_append, not_or]
      exact ⟨⟨comma_not_mem_of_isBlankText hbefore, hentry.comma⟩,
        comma_not_mem_of_isBlankText hafter⟩
    rw [entries_of_comma_not_mem hcomma, htrim, if_neg (by simpa using hentry.ne_empty),
      String.ofList_toList]
  entry entry h := by
    obtain ⟨hne, hcomma, htrimmed⟩ := isEntry_of_mem_entries h
    exact ⟨hne, hcomma, trim_eq_self_iff.1 htrimmed⟩
  again := entries_intercalate fun _ h => isEntry_of_mem_entries h

end Text

/-! ## Parameters that were given several times -/

/-- The entries of a parameter with several values are those of its values in turn, shown as they
are. -/
theorem RawValue.entries_joined (values : List RawValue) :
    Text.entries (RawValue.list values).joined =
      values.flatMap fun value => Text.entries value.shown := by
  rw [joined, Text.entries_intercalate_eq_flatMap, List.flatMap_map]

namespace Request

/-- The entries of the parameter under the key are those of its texts, however many it has. -/
structure JoinsLists (control : KeyedList RawValue) (key : String) : Prop where
  text : ∀ text, control.get? key = some (.text text) →
    ((control.get? key).map RawValue.joined).map Text.entries = some (Text.entries text)
  list : ∀ texts : List String, control.get? key = some (.list (texts.map .text)) →
    ((control.get? key).map RawValue.joined).map Text.entries =
      some (texts.flatMap Text.entries)

theorem joinsLists (control : KeyedList RawValue) (key : String) : JoinsLists control key where
  text text h := by
    rw [h]
    rfl
  list texts h := by
    rw [h, Option.map_some, Option.map_some, RawValue.entries_joined, List.flatMap_map]
    rfl

/-- **A text is split at its commas, and what was given several times is split as one list**,
whatever the text, the parameters and the key. -/
theorem readsLists (text : String) (control : KeyedList RawValue) (key : String) :
    Text.SplitsAtCommas text ∧ JoinsLists control key :=
  ⟨Text.splitsAtCommas text, joinsLists control key⟩

end Request

/-- Lists with wide spaces and separators of fields in them, two of them without an entry. -/
def Forest.wideTexts : List String := [" a b,,\u2003c\u00a0", "", ",\x1f,", "\u3000d\n"]

/-- A parameter that was given with each of those lists. -/
def Forest.wideControl : KeyedList RawValue :=
  .ofList [("_orderBy", .text "name"), ("_with", .list (wideTexts.map .text))]

theorem Request.readsLists_wide :
    Forest.wideControl.get? "_with" = some (.list (Forest.wideTexts.map .text)) ∧
      Forest.wideTexts.map Text.entries = [["a b", "c"], [], [], ["d"]] ∧
      Text.SplitsAtCommas "\u3000d\n" ∧ JoinsLists Forest.wideControl "_with" :=
  ⟨by decide +kernel, by decide +kernel, readsLists "\u3000d\n" Forest.wideControl "_with"⟩

end RequestPlan
