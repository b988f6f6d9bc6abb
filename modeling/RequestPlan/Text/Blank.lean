/-!
# Blank characters

Which characters count as blank, and what depends on nothing else: trimming a text at both ends and
reading it as a sequence of words.

* `isBlank`: the twenty-nine blank characters;
* `trim`: the text without the blanks at its two ends;
* `words`: its maximal runs of other characters.
-/

namespace RequestPlan.Text

/-- The blank characters: the line and field separators of ASCII, the space, and the spaces and
line ends of Unicode. Joiners of width zero are not among them. -/
def isBlank (c : Char) : Bool :=
  let code := c.toNat
  (0x09 ≤ code && code ≤ 0x0D) || (0x1C ≤ code && code ≤ 0x20) || code == 0x85 || code == 0xA0 ||
    code == 0x1680 || (0x2000 ≤ code && code ≤ 0x200A) || code == 0x2028 || code == 0x2029 ||
    code == 0x202F || code == 0x205F || code == 0x3000

/-- The text from its first character that is not blank. -/
def trimStart (text : List Char) : List Char :=
  text.dropWhile isBlank

/-- The text up to its last character that is not blank. -/
def trimEnd (text : List Char) : List Char :=
  (trimStart text.reverse).reverse

/-- The text without the blanks at its two ends. -/
def trim (text : List Char) : List Char :=
  trimEnd (trimStart text)

/-- The maximal runs of characters that are not blank, in order. -/
def words (text : List Char) : List (List Char) :=
  (text.splitOnP isBlank).filter (· ≠ [])

@[simp] theorem trim_nil : trim [] = [] := rfl

/-- Blanks in front of a text that starts with another character are what `trimStart` drops. -/
theorem trimStart_append {blanks text : List Char} (h : ∀ c ∈ blanks, isBlank c = true) :
    trimStart (blanks ++ text) = trimStart text := by
  induction blanks with
  | nil => rfl
  | cons b blanks ih =>
    simp only [List.mem_cons, forall_eq_or_imp] at h
    simp only [trimStart, List.cons_append, List.dropWhile_cons, h.1, if_true] at ih ⊢
    exact ih h.2

/-- A text without a blank at its front keeps it. -/
theorem trimStart_eq_self {text : List Char} (h : ∀ c ∈ text.head?, isBlank c = false) :
    trimStart text = text := by
  cases text with
  | nil => rfl
  | cons c text => simp [trimStart, h c (by simp)]

theorem head?_trimStart {text : List Char} : ∀ c ∈ (trimStart text).head?, isBlank c = false := by
  induction text with
  | nil => simp [trimStart]
  | cons b text ih =>
    simp only [trimStart, List.dropWhile_cons] at ih ⊢
    split
    · exact ih
    · next h => simpa using h

end RequestPlan.Text
