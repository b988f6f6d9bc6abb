import Mathlib
import RequestPlan.Text.SnakeCase

/-!
# Capitalised words

The words of a text, capitalised and joined, can be read off the text in one pass. So a text can be
cut wherever a word starts, and in ASCII nothing is lost but the blanks and the letter case.

* `Text.joinedFrom`, `Text.flatMap_capitalised_words`: the capitalised words in one pass;
* `Text.joinedFrom_append`, `Text.joinedFrom_false_eq`: the words of two texts together;
* `Text.IsAscii`, `Text.case_of_ascii`: texts in ASCII;
* `Text.map_toLower_joinedFrom`: the words in lower case are the text in lower case without blanks.
-/

namespace RequestPlan.Text

variable {text : List Char} {c : Char} {first : Bool}

/-! ## The capitalised words in one pass -/

/-- The words of a text, capitalised and joined. The flag says whether the text starts a word. -/
def joinedFrom (first : Bool) : List Char → List Char
  | [] => []
  | c :: rest =>
    if isBlank c then joinedFrom true rest
    else (if first then capital c else [c]) ++ joinedFrom false rest

theorem joinedFrom_of_isBlank (hc : isBlank c = true) (rest : List Char) :
    joinedFrom first (c :: rest) = joinedFrom true rest := by
  rw [joinedFrom, if_pos hc]

theorem joinedFrom_of_not_isBlank (hc : isBlank c = false) (rest : List Char) :
    joinedFrom first (c :: rest) = (if first then capital c else [c]) ++ joinedFrom false rest := by
  rw [joinedFrom, if_neg (by simp [hc])]

/-- The first piece between blanks is capitalised if it starts a word, all others are. -/
theorem joinedFrom_eq {piece : List Char} {others : List (List Char)}
    (h : text.splitOnP isBlank = piece :: others) :
    joinedFrom first text =
      (if first then capitalised piece else piece) ++ others.flatMap capitalised := by
  induction text generalizing first piece others with
  | nil =>
    obtain ⟨rfl, rfl⟩ : piece = [] ∧ others = [] := by simpa [eq_comm] using h
    cases first <;> rfl
  | cons c rest ih =>
    obtain ⟨next, more, hrest⟩ := List.exists_cons_of_ne_nil (List.splitOnP_ne_nil isBlank rest)
    rw [List.splitOnP_cons_eq_if_modifyHead, hrest] at h
    cases hc : isBlank c with
    | true =>
      obtain ⟨rfl, rfl⟩ : [] = piece ∧ next :: more = others := by simpa [hc] using h
      rw [joinedFrom_of_isBlank hc, ih hrest]
      cases first <;> rfl
    | false =>
      obtain ⟨rfl, rfl⟩ : c :: next = piece ∧ more = others := by simpa [hc] using h
      rw [joinedFrom_of_not_isBlank hc, ih hrest]
      cases first <;> simp [capitalised]

theorem flatMap_capitalised_words (text : List Char) :
    (words text).flatMap capitalised = joinedFrom true text := by
  obtain ⟨piece, others, h⟩ := List.exists_cons_of_ne_nil (List.splitOnP_ne_nil isBlank text)
  -- Empty pieces are no words, but have nothing to capitalise either.
  have hall : ∀ pieces : List (List Char),
      (pieces.filter (· ≠ [])).flatMap capitalised = pieces.flatMap capitalised := by
    intro pieces
    induction pieces with
    | nil => rfl
    | cons piece pieces ih => cases piece <;> simp_all [capitalised]
  rw [words, hall, h, joinedFrom_eq h, if_pos rfl, List.flatMap_cons]

/-- What follows the end of a text starts a word if there is a blank at the end. -/
theorem joinedFrom_append (before after : List Char) :
    joinedFrom first (before ++ after) =
      joinedFrom first before ++ joinedFrom (before.getLast?.elim first isBlank) after := by
  induction before generalizing first with
  | nil => rfl
  | cons c before ih =>
    have hlast : (c :: before).getLast?.elim first isBlank =
        before.getLast?.elim (isBlank c) isBlank := by
      rw [List.getLast?_cons]
      cases before.getLast? <;> rfl
    rw [List.cons_append, hlast]
    cases hc : isBlank c with
    | true => rw [joinedFrom_of_isBlank hc, joinedFrom_of_isBlank hc, ih]
    | false =>
      rw [joinedFrom_of_not_isBlank hc, joinedFrom_of_not_isBlank hc, ih, List.append_assoc]

/-! ## Letter case in ASCII -/

/-- A text of characters of ASCII. -/
def IsAscii (text : List Char) : Prop :=
  ∀ c ∈ text, c.toNat < 0x80

instance (text : List Char) : Decidable (IsAscii text) :=
  decidable_of_iff (text.all (·.toNat < 0x80) = true) (by simp [IsAscii])

theorem IsAscii.cons (h : IsAscii (c :: text)) : c.toNat < 0x80 ∧ IsAscii text :=
  List.forall_mem_cons.1 h

/-- What holds of all characters of ASCII can be tested. -/
theorem of_ascii {p : Char → Prop} (h : ∀ n < 0x80, p (Char.ofNat n)) (hc : c.toNat < 0x80) :
    p c := by
  rw [← Char.ofNat_toNat c]
  exact h c.toNat hc

/-- Changing its case leaves a character in ASCII, and blank or not. -/
theorem case_of_ascii (hc : c.toNat < 0x80) :
    (c.toUpper.toNat < 0x80 ∧ isBlank c.toUpper = isBlank c) ∧
      c.toLower.toNat < 0x80 ∧ isBlank c.toLower = isBlank c :=
  of_ascii (p := fun c => (c.toUpper.toNat < 0x80 ∧ isBlank c.toUpper = isBlank c) ∧
    c.toLower.toNat < 0x80 ∧ isBlank c.toLower = isBlank c) (by decide +kernel) hc

theorem toLower_eq_underscore_iff (hc : c.toNat < 0x80) : c.toLower = '_' ↔ c = '_' :=
  of_ascii (p := fun c => c.toLower = '_' ↔ c = '_') (by decide +kernel) hc

/-! ## The words in ASCII -/

theorem mem_joinedFrom (h : IsAscii text) (hc : c ∈ joinedFrom first text) :
    c.toNat < 0x80 ∧ isBlank c = false := by
  induction text generalizing first with
  | nil => exact absurd hc List.not_mem_nil
  | cons d rest ih =>
    obtain ⟨hd, hrest⟩ := h.cons
    cases hblank : isBlank d with
    | true =>
      rw [joinedFrom_of_isBlank hblank] at hc
      exact ih hrest hc
    | false =>
      rw [joinedFrom_of_not_isBlank hblank, capital_of_ascii hd, List.mem_append] at hc
      rcases hc with hc | hc
      · cases first with
        | false =>
          obtain rfl : c = d := by simpa using hc
          exact ⟨hd, hblank⟩
        | true =>
          obtain rfl : c = d.toUpper := by simpa using hc
          exact ⟨(case_of_ascii hd).1.1, (case_of_ascii hd).1.2.trans hblank⟩
      · exact ih hrest hc

/-- In lower case, the words make up the text without its blanks. -/
theorem map_toLower_joinedFrom (h : IsAscii text) :
    (joinedFrom first text).map Char.toLower =
      (text.map Char.toLower).filter fun c => !isBlank c := by
  induction text generalizing first with
  | nil => rfl
  | cons c rest ih =>
    obtain ⟨hc, hrest⟩ := h.cons
    have hlower := (case_of_ascii hc).2.2
    cases hblank : isBlank c with
    | true =>
      rw [joinedFrom_of_isBlank hblank, ih hrest, List.map_cons,
        List.filter_cons_of_neg (by simp [hlower, hblank])]
    | false =>
      rw [joinedFrom_of_not_isBlank hblank, List.map_append, ih hrest, List.map_cons,
        List.filter_cons_of_pos (by simp [hlower, hblank]), capital_of_ascii hc]
      cases first <;> simp

/-- The first letter of the words is a capital. -/
theorem isUpper_head?_joinedFrom (h : IsAscii text) :
    ∀ c ∈ (joinedFrom true text).head?, c.isUpper = c.toLower.isLower := by
  induction text with
  | nil => simp [joinedFrom]
  | cons d rest ih =>
    obtain ⟨hd, hrest⟩ := h.cons
    cases hblank : isBlank d with
    | true =>
      rw [joinedFrom_of_isBlank hblank]
      exact ih hrest
    | false =>
      rw [joinedFrom_of_not_isBlank hblank, capital_of_ascii hd]
      simp

/-- A text without blanks is a word. -/
theorem joinedFrom_of_word (h : IsAscii text) (hblank : ∀ c ∈ text, isBlank c = false) :
    joinedFrom false text = text := by
  induction text with
  | nil => rfl
  | cons c rest ih =>
    obtain ⟨hc, hrest⟩ := List.forall_mem_cons.1 hblank
    rw [joinedFrom_of_not_isBlank hc, ih h.cons.2 hrest]
    rfl

/-- Whether or not a word has started makes no difference in front of a blank or a capital. -/
theorem joinedFrom_false_eq (h : IsAscii text)
    (hhead : (text.head?.any fun c => isBlank c || c.isUpper) = true) :
    joinedFrom false text = joinedFrom true text := by
  cases text with
  | nil => rfl
  | cons c rest =>
    cases hblank : isBlank c with
    | true => rw [joinedFrom_of_isBlank hblank, joinedFrom_of_isBlank hblank]
    | false =>
      have hupper : c.isUpper = true := by simpa [hblank] using hhead
      have hcapital : c.toUpper = c :=
        Char.toUpper_eq_of_not_isLower (Char.not_isLower_of_isUpper hupper)
      rw [joinedFrom_of_not_isBlank hblank, joinedFrom_of_not_isBlank hblank,
        capital_of_ascii h.cons.1, hcapital]
      rfl

end RequestPlan.Text
