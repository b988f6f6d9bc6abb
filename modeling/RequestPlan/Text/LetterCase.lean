import RequestPlan.Text.LetterCase.Table

/-!
# Letter case

The full case mappings of characters and texts. A capital form may take several characters, and a
capital sigma has two lower-case forms: one for the end of a word, one for everywhere else.

* `capital`: the upper-case form of a character;
* `lower`: the lower-case form of a text.
-/

namespace RequestPlan.Text

open LetterCase

/-- The character whose code point lies `shift` away. -/
def shifted (c : Char) (shift : Int) : Char :=
  Char.ofNat (c.toNat + shift).toNat

/-- The upper-case form of a character. -/
def capital (c : Char) : List Char :=
  if c.toNat < 0x80 then [c.toUpper]
  else
    match toUpperSeveral.lookup c.toNat with
    | some codes => codes.map Char.ofNat
    | none =>
      match toUpper.find? (·.covers c.toNat) with
      | some run => [shifted c run.shift]
      | none => [c]

/-- The lower-case form of a character by itself. -/
def lowerChar (c : Char) : List Char :=
  if c.toNat < 0x80 then [c.toLower]
  else if c = '\u0130' then ['i', '\u0307']
  else
    match toLower.find? (·.covers c.toNat) with
    | some run => [shifted c run.shift]
    | none => [c]

/-- Whether one of the ranges holds the character. -/
def inRanges (ranges : List (Nat × Nat)) (c : Char) : Bool :=
  ranges.any fun (first, last) => first ≤ c.toNat && c.toNat ≤ last

/-- Whether the first character that is not case-ignorable has a case. -/
def startsCased (text : List Char) : Bool :=
  (text.dropWhile (inRanges caseIgnorable)).head?.any (inRanges cased)

/-- The lower-case form of a text that follows `before`, which is given from its end backwards: a
capital sigma takes its final form after a letter if no letter follows. -/
def lowerAfter (before : List Char) : List Char → List Char
  | [] => []
  | c :: rest =>
    let form :=
      if c = 'Σ' then if startsCased before && !startsCased rest then ['ς'] else ['σ']
      else lowerChar c
    form ++ lowerAfter (c :: before) rest

/-- The lower-case form of a text. -/
def lower (text : List Char) : List Char :=
  lowerAfter [] text

theorem capital_of_ascii {c : Char} (h : c.toNat < 0x80) : capital c = [c.toUpper] := by
  simp [capital, h]

theorem lowerChar_of_ascii {c : Char} (h : c.toNat < 0x80) : lowerChar c = [c.toLower] := by
  simp [lowerChar, h]

/-- On ASCII the lower-case form is taken character by character. -/
theorem lower_of_ascii {text : List Char} (h : ∀ c ∈ text, c.toNat < 0x80) :
    lower text = text.map Char.toLower := by
  suffices ∀ before, lowerAfter before text = text.map Char.toLower from this []
  induction text with
  | nil => simp [lowerAfter]
  | cons c rest ih =>
    intro before
    simp only [List.mem_cons, forall_eq_or_imp] at h
    have hc : c ≠ 'Σ' := by
      rintro rfl
      exact absurd h.1 (by decide)
    simp [lowerAfter, hc, lowerChar_of_ascii h.1, ih h.2]

end RequestPlan.Text
