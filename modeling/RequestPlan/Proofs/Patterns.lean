import Mathlib.Data.List.Infix
import RequestPlan.Filter.Basic
import RequestPlan.Proofs.Listing

/-!
# Texts as patterns

A text in which the marker occurs is a pattern: it is cut at the marker from left to right, and the
wildcard takes the place of each marker. Markers can overlap with themselves and wildcards can hold
markers, so that it matters where the cuts are and that what is put in is not read again.

* `Text.EndsAtFirst`, `Text.IsLeftmost`: the way to cut a text at a marker from left to right;
* `Text.isLeftmost_cons_iff`, `Text.isLeftmost_pieces`, `Text.IsLeftmost.unique`: `Text.pieces` cuts
  in this way, and there is no other;
* `Filter.ReadsPatterns`: what the filter of a text is like, with and without the marker in it;
* `Filter.readsPatterns`: all texts make such filters.
-/

namespace RequestPlan

namespace Text

/-- In the piece followed by the marker, the marker does not occur before its place at the end. -/
def EndsAtFirst (marker piece : List Char) : Prop :=
  ∀ before after, before ++ marker ++ after = piece ++ marker → after = []

/-- The parts of a text that is cut at the marker wherever it occurs first in what is left. -/
structure IsLeftmost (marker text : List Char) (parts : List (List Char)) : Prop where
  ne_nil : parts ≠ []
  joined : marker.intercalate parts = text
  free : ∀ part ∈ parts, ¬ marker <:+: part
  /-- Every part but the last is followed by the marker. -/
  first : ∀ part ∈ parts.dropLast, EndsAtFirst marker part

variable {marker text rest piece : List Char} {parts others : List (List Char)}

theorem occurs_iff_isInfix : occurs marker text = true ↔ marker <:+: text := by
  rw [occurs_iff]
  constructor
  · rintro ⟨before, after, h⟩
    exact ⟨before, after, h.symm⟩
  · rintro ⟨before, after, h⟩
    exact ⟨before, after, h.symm⟩

theorem EndsAtFirst.not_isInfix (h : EndsAtFirst marker piece) (hm : marker ≠ []) :
    ¬ marker <:+: piece := by
  rintro ⟨before, after, rfl⟩
  have hnil := h before (after ++ marker) (by simp)
  exact hm (List.append_eq_nil_iff.1 hnil).2

theorem isLeftmost_singleton_iff :
    IsLeftmost marker text [piece] ↔ piece = text ∧ ¬ marker <:+: text := by
  constructor
  · intro h
    obtain rfl : piece = text := by simpa using h.joined
    exact ⟨rfl, h.free piece List.mem_cons_self⟩
  · rintro ⟨rfl, hfree⟩
    exact ⟨by simp, by simp, by simpa using hfree, by simp⟩

/-- The first part ends where the marker occurs first, and what follows the marker is cut in the
same way. -/
theorem isLeftmost_cons_iff (hm : marker ≠ []) (hne : parts ≠ []) :
    IsLeftmost marker text (piece :: parts) ↔
      ∃ rest, text = piece ++ marker ++ rest ∧ EndsAtFirst marker piece ∧
        IsLeftmost marker rest parts := by
  have hlast : (piece :: parts).dropLast = piece :: parts.dropLast :=
    List.dropLast_cons_of_ne_nil hne
  constructor
  · intro h
    obtain ⟨-, hjoined, hfree, hfirst⟩ := h
    rw [List.intercalate_cons_of_ne_nil hne] at hjoined
    rw [hlast] at hfirst
    exact ⟨_, hjoined.symm, hfirst piece List.mem_cons_self, hne, rfl,
      fun part hpart => hfree part (List.mem_cons_of_mem _ hpart),
      fun part hpart => hfirst part (List.mem_cons_of_mem _ hpart)⟩
  · rintro ⟨rest, rfl, hends, h⟩
    refine ⟨by simp, ?_, ?_, ?_⟩
    · rw [List.intercalate_cons_of_ne_nil hne, h.joined]
    · exact List.forall_mem_cons.2 ⟨hends.not_isInfix hm, h.free⟩
    · rw [hlast]
      exact List.forall_mem_cons.2 ⟨hends, h.first⟩

/-- A text that starts with the marker starts with an empty part. -/
theorem IsLeftmost.nil_cons (hm : marker ≠ []) (h : IsLeftmost marker rest parts) :
    IsLeftmost marker (marker ++ rest) ([] :: parts) := by
  refine (isLeftmost_cons_iff hm h.ne_nil).2 ⟨rest, rfl, fun before after heq => ?_, h⟩
  have hlength := congrArg List.length heq
  simp only [List.length_append, List.length_nil] at hlength
  exact List.eq_nil_of_length_eq_zero (by omega)

/-- A character in front of the text goes to the first part, unless the marker starts there. -/
theorem IsLeftmost.cons_first {c : Char} (hm : marker ≠ []) (hc : ¬ marker <+: c :: text)
    (h : IsLeftmost marker text parts) :
    IsLeftmost marker (c :: text) (parts.modifyHead (c :: ·)) := by
  obtain ⟨piece, parts, rfl⟩ := List.exists_cons_of_ne_nil h.ne_nil
  rw [List.modifyHead_cons]
  rcases eq_or_ne parts [] with rfl | hne
  · obtain ⟨rfl, hfree⟩ := isLeftmost_singleton_iff.1 h
    rw [isLeftmost_singleton_iff, List.infix_cons_iff]
    exact ⟨rfl, fun hholds => hholds.elim hc hfree⟩
  · obtain ⟨rest, rfl, hends, hrest⟩ := (isLeftmost_cons_iff hm hne).1 h
    refine (isLeftmost_cons_iff hm hne).2 ⟨rest, by simp, fun before after heq => ?_, hrest⟩
    cases before with
    | nil =>
      -- Here the marker would be at the front of the text.
      refine absurd ?_ hc
      refine ⟨after ++ rest, ?_⟩
      rw [← List.append_assoc, ← List.nil_append marker, heq]
      simp
    | cons b before =>
      simp only [List.cons_append, List.cons.injEq] at heq
      exact hends before after heq.2

/-- The pieces of a text are those of the cut from left to right. -/
theorem isLeftmost_pieces (hm : marker ≠ []) (text : List Char) :
    IsLeftmost marker text (pieces marker text) := by
  fun_induction pieces marker text with
  | case1 => exact isLeftmost_singleton_iff.2 ⟨rfl, fun h => hm (List.infix_nil.1 h)⟩
  | case2 c rest h ih =>
    obtain ⟨after, h⟩ := List.isPrefixOf_iff_prefix.1 h
    obtain ⟨m, marker, rfl⟩ := List.exists_cons_of_ne_nil hm
    obtain ⟨rfl, rfl⟩ : m = c ∧ marker ++ after = rest := by simpa using h
    have hafter : (marker ++ after).drop ((m :: marker).length - 1) = after := by simp
    rw [hafter] at ih ⊢
    exact ih.nil_cons hm
  | case3 c rest h ih => exact ih.cons_first hm fun hc => h (List.isPrefixOf_iff_prefix.2 hc)

/-- Of two first occurrences of the marker neither is before the other. -/
theorem EndsAtFirst.eq {other rest' : List Char} (h : EndsAtFirst marker piece)
    (h' : EndsAtFirst marker other) (heq : piece ++ marker ++ rest = other ++ marker ++ rest') :
    piece = other ∧ rest = rest' := by
  have hpiece : piece ++ marker = other ++ marker := by
    rcases List.append_eq_append_iff.1 heq with ⟨after, hother, -⟩ | ⟨after, hpiece, -⟩
    · rw [hother, h' piece after hother.symm, List.append_nil]
    · rw [hpiece, h other after hpiece.symm, List.append_nil]
  exact ⟨List.append_cancel_right hpiece, List.append_cancel_left (hpiece ▸ heq)⟩

/-- A text that is cut further holds the marker, and one that is not cut does not. -/
theorem IsLeftmost.eq_of_singleton (hm : marker ≠ []) (h : IsLeftmost marker text [piece])
    (h' : IsLeftmost marker text others) : others = [piece] := by
  obtain ⟨rfl, hfree⟩ := isLeftmost_singleton_iff.1 h
  obtain ⟨other, others, rfl⟩ := List.exists_cons_of_ne_nil h'.ne_nil
  rcases eq_or_ne others [] with rfl | hne
  · rw [(isLeftmost_singleton_iff.1 h').1]
  · obtain ⟨rest, rfl, -, -⟩ := (isLeftmost_cons_iff hm hne).1 h'
    exact absurd ⟨other, rest, rfl⟩ hfree

/-- There is one way to cut a text from left to right. -/
theorem IsLeftmost.unique (hm : marker ≠ []) (h : IsLeftmost marker text parts)
    (h' : IsLeftmost marker text others) : parts = others := by
  induction parts generalizing text others with
  | nil => exact absurd rfl h.ne_nil
  | cons piece parts ih =>
    rcases eq_or_ne parts [] with rfl | hne
    · exact (h.eq_of_singleton hm h').symm
    obtain ⟨other, others, rfl⟩ := List.exists_cons_of_ne_nil h'.ne_nil
    rcases eq_or_ne others [] with rfl | hne'
    · exact h'.eq_of_singleton hm h
    -- Both cut the marker out where it occurs first, and leave the same text to cut.
    obtain ⟨rest, rfl, hends, hrest⟩ := (isLeftmost_cons_iff hm hne).1 h
    obtain ⟨rest', heq, hends', hrest'⟩ := (isLeftmost_cons_iff hm hne').1 h'
    obtain ⟨rfl, rfl⟩ := hends.eq hends' heq
    rw [ih hrest hrest']

/-- The text is cut at all if the marker occurs in it. -/
theorem IsLeftmost.two_le_length (h : IsLeftmost marker text parts) (hocc : marker <:+: text) :
    2 ≤ parts.length := by
  obtain ⟨piece, parts, rfl⟩ := List.exists_cons_of_ne_nil h.ne_nil
  rcases eq_or_ne parts [] with rfl | hne
  · exact absurd hocc (isLeftmost_singleton_iff.1 h).2
  · have hpos := List.length_pos_of_ne_nil hne
    rw [List.length_cons]
    omega

/-- A marker of one character is gone unless the replacement brings it back. -/
theorem not_mem_replaceAll {c : Char} {replacement : List Char} (hc : c ∉ replacement)
    (text : List Char) : c ∉ replaceAll [c] replacement text := by
  intro hmem
  rcases mem_of_mem_intercalate hmem with hrep | ⟨piece, hpiece, hmem⟩
  · exact hc hrep
  · obtain ⟨before, after, rfl⟩ := List.append_of_mem hmem
    exact (isLeftmost_pieces (List.cons_ne_nil c []) text).free _ hpiece ⟨before, after, by simp⟩

end Text

/-! ## Filters of texts -/

namespace Scalar

theorem ofWord?_ne_text (word other : String) : ofWord? word ≠ some (.text other) := by
  unfold ofWord?
  split_ifs <;> simp

theorem eq_of_ofNumber_eq_text {literal other : String} {number : Decimal}
    (h : ofNumber literal number = .ok (raw (.text other))) : other = literal := by
  unfold ofNumber at h
  cases hint : number.toInt? with
  | some n =>
    rw [hint] at h
    split_ifs at h <;> simp_all
  | none =>
    rw [hint] at h
    split_ifs at h <;> simp_all

/-- A text never stands for another text. -/
theorem eq_of_ofRaw_eq_text {text other : String}
    (h : ofRaw (.text text) = .ok (raw (.text other))) : other = text := by
  unfold ofRaw ofText at h
  cases hword : ofWord? text with
  | some value =>
    obtain rfl : value = .text other := by simpa [hword] using h
    exact absurd hword (ofWord?_ne_text text other)
  | none =>
    cases hnumber : Decimal.ofText? text.toList with
    | some number =>
      simp only [hword, hnumber] at h
      exact eq_of_ofNumber_eq_text h
    | none => simpa [hword, hnumber, eq_comm] using h

end Scalar

namespace Filter

/-- What the filter of a text is like. -/
structure ReadsPatterns (v : Vocabulary) (text : String) : Prop where
  like_iff : ∀ tableAlias field connective,
    (∃ pattern, Filter.ofRaw v tableAlias field (.text text) connective =
        .ok ⟨tableAlias, field, .like pattern, connective⟩) ↔
      v.marker.toList <:+: text.toList
  /-- A pattern is the text with the wildcard for the markers between its parts. -/
  like : v.marker.toList <:+: text.toList →
    ∃ parts, 2 ≤ parts.length ∧ Text.IsLeftmost v.marker.toList text.toList parts ∧
      (∀ others, Text.IsLeftmost v.marker.toList text.toList others → others = parts) ∧
      ∀ tableAlias field connective,
        Filter.ofRaw v tableAlias field (.text text) connective =
          .ok ⟨tableAlias, field, .like (String.ofList (v.wildcard.toList.intercalate parts)),
            connective⟩
  /-- Without the marker, there is a filter for the value that the text stands for, if it stands for
  one. -/
  equals : ¬ v.marker.toList <:+: text.toList → ∀ tableAlias field connective,
    Filter.ofRaw v tableAlias field (.text text) connective =
      (Scalar.ofRaw (.text text)).map fun value =>
        ⟨tableAlias, field, .equals value, connective⟩
  plain : ∀ tableAlias field connective f other,
    Filter.ofRaw v tableAlias field (.text text) connective = .ok f →
      f.comparison = .equals (.raw (.text other)) →
        other = text ∧ ¬ v.marker.toList <:+: other.toList
  /-- A marker of one character that the wildcard does not hold is gone. -/
  single : ∀ c, v.marker.toList = [c] → c ∉ v.wildcard.toList →
    ∀ tableAlias field connective f pattern,
      Filter.ofRaw v tableAlias field (.text text) connective = .ok f →
        f.comparison = .like pattern → c ∉ pattern.toList

variable {v : Vocabulary} {text tableAlias field : String} {connective : Connective}

theorem marker_ne_nil (v : Vocabulary) : v.marker.toList ≠ [] :=
  fun h => v.marker_ne_empty (String.toList_eq_nil_iff.1 h)

theorem ofRaw_of_isInfix (h : v.marker.toList <:+: text.toList) :
    Filter.ofRaw v tableAlias field (.text text) connective =
      .ok ⟨tableAlias, field, .like (String.ofList
        (Text.replaceAll v.marker.toList v.wildcard.toList text.toList)), connective⟩ := by
  have hocc := Text.occurs_iff_isInfix.2 h
  simp only [Filter.ofRaw, Comparison.ofRaw, Vocabulary.pattern?, hocc, if_true]
  rfl

theorem ofRaw_of_not_isInfix (h : ¬ v.marker.toList <:+: text.toList) :
    Filter.ofRaw v tableAlias field (.text text) connective =
      (Scalar.ofRaw (.text text)).map fun value =>
        ⟨tableAlias, field, .equals value, connective⟩ := by
  have hocc : ¬ Text.occurs v.marker.toList text.toList = true :=
    fun hocc => h (Text.occurs_iff_isInfix.1 hocc)
  simp only [Filter.ofRaw, Comparison.ofRaw, Vocabulary.pattern?, hocc]
  cases Scalar.ofRaw (.text text) <;> rfl

/-- Without the marker there is no pattern, with it there is nothing else. -/
theorem comparison_of_ofRaw {f : Filter}
    (h : Filter.ofRaw v tableAlias field (.text text) connective = .ok f) :
    (v.marker.toList <:+: text.toList ∧ f.comparison = .like (String.ofList
        (Text.replaceAll v.marker.toList v.wildcard.toList text.toList))) ∨
      ¬ v.marker.toList <:+: text.toList ∧
        ∃ value, Scalar.ofRaw (.text text) = .ok value ∧ f.comparison = .equals value := by
  by_cases hholds : v.marker.toList <:+: text.toList
  · rw [ofRaw_of_isInfix hholds, Except.ok.injEq] at h
    exact .inl ⟨hholds, by rw [← h]⟩
  · rw [ofRaw_of_not_isInfix hholds] at h
    cases hvalue : Scalar.ofRaw (.text text) with
    | error e => simp [hvalue, Except.map] at h
    | ok value =>
      rw [hvalue] at h
      exact .inr ⟨hholds, value, rfl, by rw [← Except.ok.inj h]⟩

/-- **Every text makes a filter of a pattern if the marker occurs in it**, and otherwise of the
value that it stands for. -/
theorem readsPatterns (v : Vocabulary) (text : String) : ReadsPatterns v text where
  like_iff tableAlias field connective := by
    constructor
    · rintro ⟨pattern, hpattern⟩
      rcases comparison_of_ofRaw hpattern with ⟨hholds, -⟩ | ⟨-, value, -, hvalue⟩
      · exact hholds
      · cases hvalue
    · exact fun hholds => ⟨_, ofRaw_of_isInfix hholds⟩
  like hholds := by
    have hleftmost := Text.isLeftmost_pieces (marker_ne_nil v) text.toList
    exact ⟨_, hleftmost.two_le_length hholds, hleftmost,
      fun others hothers => hothers.unique (marker_ne_nil v) hleftmost,
      fun tableAlias field connective => ofRaw_of_isInfix hholds⟩
  equals hholds tableAlias field connective := ofRaw_of_not_isInfix hholds
  plain tableAlias field connective f other hf hother := by
    rcases comparison_of_ofRaw hf with ⟨-, hlike⟩ | ⟨hfree, value, hvalue, hequals⟩
    · simp [hlike] at hother
    · obtain rfl : value = .raw (.text other) := by simpa [hequals] using hother
      obtain rfl := Scalar.eq_of_ofRaw_eq_text hvalue
      exact ⟨rfl, hfree⟩
  single c hmarker hwildcard tableAlias field connective f pattern hf hpattern := by
    rcases comparison_of_ofRaw hf with ⟨-, hlike⟩ | ⟨-, value, -, hequals⟩
    · obtain rfl := Comparison.like.inj (hlike.symm.trans hpattern)
      rw [String.toList_ofList, hmarker]
      exact Text.not_mem_replaceAll hwildcard text.toList
    · simp [hequals] at hpattern

end Filter

/-- A vocabulary with a marker that can overlap with itself, and that the wildcard holds. -/
def Vocabulary.overlapping : Vocabulary :=
  { conventional with
    marker := "aa"
    wildcard := "baab"
    marker_ne_empty := by decide }

/-- The second marker starts where the first one ends, and those that come with the wildcards
stay. -/
theorem Filter.readsPatterns_overlapping :
    Vocabulary.overlapping.marker.toList <:+: "caaaaad".toList ∧
      Filter.ofRaw .overlapping "nodes" "name" (.text "caaaaad") .and =
        .ok ⟨"nodes", "name", .like "cbaabbaabad", .and⟩ ∧
      ReadsPatterns .overlapping "caaaaad" :=
  ⟨by decide +kernel, by decide +kernel, readsPatterns .overlapping "caaaaad"⟩

end RequestPlan
