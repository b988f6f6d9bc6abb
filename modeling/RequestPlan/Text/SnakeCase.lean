import RequestPlan.Text.Blank
import RequestPlan.Text.LetterCase

/-!
# Snake case

The snake-case form of a type name, as in `parent_node` for `ParentNode`. Words between blanks are
capitalised and joined first, and then every capital letter of ASCII but the first character begins
a new part.

* `capitalised`: a word with its first character in upper case;
* `separated`: an underscore in front of each capital letter that does not come first;
* `snakeCase`: both, in lower case.
-/

namespace RequestPlan.Text

/-- The word with its first character in upper case. -/
def capitalised : List Char → List Char
  | [] => []
  | c :: rest => capital c ++ rest

/-- The text with an underscore in front of each capital letter of ASCII. -/
def underscored (text : List Char) : List Char :=
  text.flatMap fun c => if c.isUpper then ['_', c] else [c]

/-- The text with an underscore in front of each capital letter of ASCII that does not come
first. -/
def separated : List Char → List Char
  | [] => []
  | c :: rest => c :: underscored rest

/-- The snake-case form of a name. -/
def snakeCase (name : String) : String :=
  String.ofList (lower (separated ((words name.toList).flatMap capitalised)))

end RequestPlan.Text
