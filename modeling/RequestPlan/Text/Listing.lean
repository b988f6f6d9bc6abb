import RequestPlan.Text.Blank

/-!
# Lists within a text

Requests write lists into one text: entries between commas, and within an entry the names of a chain
between dots. Blanks around an entry or a name do not count.

* `entries`: the entries of a comma-separated list, blank ones left out;
* `chainNames`: the names of a dot-separated chain, empty ones included;
* `chain`: a chain written from its names.

`entries_append_comma` says that a comma between two lists joins their entries.
-/

namespace RequestPlan.Text

/-- The entries of a comma-separated list: trimmed, and without the blank ones. -/
def entries (text : String) : List String :=
  (((text.toList.splitOn ',').map trim).filter (· ≠ [])).map String.ofList

/-- The names of a dot-separated chain, each of them trimmed. -/
def chainNames (text : String) : List String :=
  ((text.toList.splitOn '.').map trim).map String.ofList

/-- The chain with the given names. -/
def chain (names : List String) : String :=
  ".".intercalate names

theorem entries_empty : entries "" = [] := by decide

/-- The entries of two lists with a comma between them are those of the first, then those of the
second. -/
theorem entries_append_comma (a b : String) : entries (a ++ "," ++ b) = entries a ++ entries b := by
  have h : (a ++ "," ++ b).toList = a.toList ++ ',' :: b.toList := by simp
  simp only [entries, h, List.splitOn_append_cons_self, List.map_append, List.filter_append]

end RequestPlan.Text
