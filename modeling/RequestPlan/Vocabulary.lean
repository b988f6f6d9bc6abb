import RequestPlan.Error
import RequestPlan.Text.Search

/-!
# Vocabularies

The words that a request is written in: the mark in front of control parameters, the names of the
four control parameters, the separator after a namespace, and the marks of patterns.

* `Keywords`: any choice of words, with the conventional ones as defaults;
* `Vocabulary`: a choice that keeps the parameters apart;
* `Vocabulary.ofKeywords`: the check that a choice is one.
-/

namespace RequestPlan

/-- A choice of words for requests. -/
structure Keywords where
  /-- Starts every control parameter. -/
  sigil : String := "_"
  /-- Stands between a namespace and a field. -/
  separator : String := "_"
  /-- Makes a value a pattern, wherever it occurs in it. -/
  marker : String := "~"
  /-- Takes the place of the marker in a pattern. -/
  wildcard : String := "%"
  /-- Names the parameter with the relation chains. -/
  relationsKey : String := "_with"
  /-- Names the parameter with the fields to order by. -/
  orderKey : String := "_orderBy"
  /-- Names the parameter with the direction of the order. -/
  directionKey : String := "_order"
  /-- Names the parameter that asks for a random order. -/
  randomKey : String := "_orderRandom"
  deriving DecidableEq

/-- The names of the four control parameters. -/
def Keywords.controlKeys (words : Keywords) : List String :=
  [words.relationsKey, words.orderKey, words.directionKey, words.randomKey]

/-- A choice of words in which every control key is recognised as one and patterns have a mark. -/
structure Vocabulary extends Keywords where
  sigil_ne_empty : sigil ≠ ""
  marker_ne_empty : marker ≠ ""
  startsWith_sigil : ∀ key ∈ toKeywords.controlKeys, Text.startsWith sigil key = true
  deriving DecidableEq

namespace Vocabulary

/-- The vocabulary with the given words, if they make one. -/
def ofKeywords (words : Keywords) : Except Error Vocabulary :=
  if hs : words.sigil = "" then .error .emptySigil
  else if hm : words.marker = "" then .error .emptyMarker
  else
    match h : words.controlKeys.find? fun key => !Text.startsWith words.sigil key with
    | some key => .error (.keyWithoutSigil key words.sigil)
    | none =>
      .ok
        { words with
          sigil_ne_empty := hs
          marker_ne_empty := hm
          startsWith_sigil := by simpa using List.find?_eq_none.1 h }

/-- The conventional vocabulary. -/
def conventional : Vocabulary where
  sigil_ne_empty := by decide
  marker_ne_empty := by decide
  startsWith_sigil := by decide

example : ofKeywords {} = .ok conventional := by rfl

end Vocabulary

end RequestPlan
