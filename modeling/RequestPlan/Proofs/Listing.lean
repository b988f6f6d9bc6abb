import Mathlib.Data.List.Infix
import RequestPlan.Text.Listing

/-!
# Names in a chain

The names of a chain hold no dot, so that a chain written from names can be read back: two lists of
names that are written in the same way are the same. The entries of a list hold no comma, so that
the list can be read back too, as long as no entry is blank.

* `trim_eq_self_iff`, `trim_intercalate`: the texts that trimming leaves alone;
* `chain_inj`: different names make different chains;
* `IsEntry`, `IsChainName`: the texts that entries of a list, and names of a chain in one, can be;
* `entries_intercalate`, `chainNames_chain`: lists of entries and chains are read back;
* `entries_intercalate_eq_flatMap`: the entries of several lists written as one.
-/

namespace RequestPlan.Text

/-- The characters of a piece are characters of the text, and none of them is the separator. -/
theorem mem_of_mem_splitOn {separator c : Char} {text piece : List Char}
    (h : piece ∈ text.splitOn separator) (hc : c ∈ piece) : c ∈ text ∧ c ≠ separator := by
  induction text generalizing piece with
  | nil => simp_all
  | cons d text ih =>
    -- A further character in front starts a piece of its own or goes into the first one.
    rw [List.splitOn_cons_eq_if_modifyHead] at h
    cases hs : text.splitOn separator with
    | nil => exact absurd hs (List.splitOn_ne_nil _ _)
    | cons first others =>
      rw [hs] at h ih
      have hlater : ∀ piece ∈ first :: others, c ∈ piece → c ∈ d :: text ∧ c ≠ separator :=
        fun piece hpiece hc => (ih hpiece hc).imp_left (List.mem_cons_of_mem d)
      split at h
      · rcases List.mem_cons.1 h with rfl | h
        · exact absurd hc List.not_mem_nil
        · exact hlater piece h hc
      · next hd =>
        rw [List.modifyHead_cons] at h
        rcases List.mem_cons.1 h with rfl | h
        · rcases List.mem_cons.1 hc with rfl | hc
          · exact ⟨List.mem_cons_self, by simpa using hd⟩
          · exact hlater first List.mem_cons_self hc
        · exact hlater piece (List.mem_cons_of_mem _ h) hc

/-- The pieces between separators hold none. -/
theorem not_mem_of_mem_splitOn {separator : Char} {text piece : List Char}
    (h : piece ∈ text.splitOn separator) : separator ∉ piece :=
  fun hc => (mem_of_mem_splitOn h hc).2 rfl

/-! ## Trimmed texts -/

theorem head?_trim {text : List Char} : ∀ c ∈ (trim text).head?, isBlank c = false := by
  have hprefix : trim text <+: trimStart text := by
    rw [trim, trimEnd, ← List.reverse_suffix, List.reverse_reverse]
    exact List.dropWhile_suffix isBlank
  obtain ⟨blanks, hblanks⟩ := hprefix
  intro c hc
  have hstart : c ∈ (trimStart text).head? := by
    rw [← hblanks, List.head?_append, hc]
    rfl
  exact head?_trimStart c hstart

theorem getLast?_trim {text : List Char} : ∀ c ∈ (trim text).getLast?, isBlank c = false := by
  rw [trim, trimEnd, List.getLast?_reverse]
  exact head?_trimStart

/-- Trimming leaves exactly the texts alone that neither begin nor end with a blank. -/
theorem trim_eq_self_iff {text : List Char} :
    trim text = text ↔
      (∀ c ∈ text.head?, isBlank c = false) ∧ ∀ c ∈ text.getLast?, isBlank c = false := by
  constructor
  · intro h
    rw [← h]
    exact ⟨head?_trim, getLast?_trim⟩
  · rintro ⟨hhead, hlast⟩
    rw [← List.head?_reverse] at hlast
    rw [trim, trimStart_eq_self hhead, trimEnd, trimStart_eq_self hlast, List.reverse_reverse]

@[simp] theorem trim_trim (text : List Char) : trim (trim text) = trim text :=
  trim_eq_self_iff.2 ⟨head?_trim, getLast?_trim⟩

theorem trim_sublist (text : List Char) : (trim text).Sublist text := by
  have hstart : ∀ text : List Char, (trimStart text).Sublist text := fun text =>
    List.dropWhile_sublist isBlank
  have hend := (hstart (trimStart text).reverse).reverse
  rw [List.reverse_reverse] at hend
  exact hend.trans (hstart text)

/-! ## The names of a chain -/

/-- A name of a chain holds no dot. -/
theorem dot_not_mem_of_mem_chainNames {text name : String} (h : name ∈ chainNames text) :
    '.' ∉ name.toList := by
  simp only [chainNames, List.map_map, List.mem_map, Function.comp_apply] at h
  obtain ⟨piece, hpiece, rfl⟩ := h
  rw [String.toList_ofList]
  exact fun hdot => not_mem_of_mem_splitOn hpiece ((trim_sublist piece).subset hdot)

theorem toList_chain (names : List String) :
    (chain names).toList = ['.'].intercalate (names.map String.toList) := by
  simp [chain, String.toList_intercalate]

/-- A chain is read back from the way it is written, unless it has no names. -/
theorem splitOn_chain {names : List String} (hne : names ≠ [])
    (hdot : ∀ name ∈ names, '.' ∉ name.toList) :
    (chain names).toList.splitOn '.' = names.map String.toList := by
  rw [toList_chain]
  exact List.splitOn_intercalate '.' (by simpa using hdot) (by simpa using hne)

theorem chain_inj {names names' : List String} (hne : names ≠ []) (hne' : names' ≠ [])
    (hdot : ∀ name ∈ names, '.' ∉ name.toList) (hdot' : ∀ name ∈ names', '.' ∉ name.toList)
    (h : chain names = chain names') : names = names' := by
  have hmap : names.map String.toList = names'.map String.toList := by
    rw [← splitOn_chain hne hdot, ← splitOn_chain hne' hdot', h]
  exact (List.map_inj_right fun _ _ => String.toList_inj.1).1 hmap

/-! ## Reading back what was written -/

theorem mem_of_mem_intercalate {separator : List Char} {c : Char} {pieces : List (List Char)}
    (h : c ∈ separator.intercalate pieces) : c ∈ separator ∨ ∃ piece ∈ pieces, c ∈ piece := by
  induction pieces with
  | nil => simp at h
  | cons first rest ih =>
    cases rest with
    | nil => exact .inr ⟨first, List.mem_cons_self, by simpa using h⟩
    | cons second rest =>
      rw [List.intercalate_cons_cons, List.mem_append, List.mem_append] at h
      rcases h with (h | h) | h
      · exact .inr ⟨first, List.mem_cons_self, h⟩
      · exact .inl h
      · exact (ih h).imp_right fun ⟨piece, hp, hc⟩ => ⟨piece, List.mem_cons_of_mem _ hp, hc⟩

/-- Trimmed pieces with a separator between them that is no blank make up a trimmed text. -/
theorem trim_intercalate {separator : Char} {pieces : List (List Char)}
    (hseparator : isBlank separator = false) (h : ∀ piece ∈ pieces, trim piece = piece) :
    trim ([separator].intercalate pieces) = [separator].intercalate pieces := by
  induction pieces with
  | nil => rfl
  | cons first rest ih =>
    obtain ⟨hfirst, hrest⟩ := List.forall_mem_cons.1 h
    cases rest with
    | nil => simpa using hfirst
    | cons second rest =>
      obtain ⟨hhead, -⟩ := trim_eq_self_iff.1 hfirst
      obtain ⟨-, hlast⟩ := trim_eq_self_iff.1 (ih hrest)
      rw [List.intercalate_cons_cons]
      generalize [separator].intercalate (second :: rest) = others at hlast
      refine trim_eq_self_iff.2 ⟨?_, ?_⟩
      · cases first with
        | nil => simpa using hseparator
        | cons c first => simpa using hhead
      · cases others with
        | nil => simpa using hseparator
        | cons c others => simpa [List.getLast?_append] using hlast

theorem map_trim_toList {texts : List String} (h : ∀ text ∈ texts, trim text.toList = text.toList) :
    (texts.map String.toList).map trim = texts.map String.toList := by
  rw [List.map_map]
  exact List.map_congr_left h

/-- A text that can be an entry of a list: without commas, without blanks around it, and not
empty. -/
structure IsEntry (entry : String) : Prop where
  ne_empty : entry ≠ ""
  comma : ',' ∉ entry.toList
  trimmed : trim entry.toList = entry.toList

theorem isEntry_of_mem_entries {text entry : String} (h : entry ∈ entries text) :
    IsEntry entry := by
  obtain ⟨_, hkept, rfl⟩ := List.mem_map.1 h
  obtain ⟨htrimmed, hne⟩ := List.mem_filter.1 hkept
  obtain ⟨piece, hpiece, rfl⟩ := List.mem_map.1 htrimmed
  refine ⟨?_, ?_, by rw [String.toList_ofList, trim_trim]⟩
  · simpa using hne
  · rw [String.toList_ofList]
    exact fun hcomma => not_mem_of_mem_splitOn hpiece ((trim_sublist piece).subset hcomma)

/-- A list of entries is read back from the way it is written. -/
theorem entries_intercalate {parts : List String} (h : ∀ part ∈ parts, IsEntry part) :
    entries (",".intercalate parts) = parts := by
  rcases eq_or_ne parts [] with rfl | hne
  · exact entries_empty
  have hjoined : (",".intercalate parts).toList = [','].intercalate (parts.map String.toList) := by
    simp [String.toList_intercalate]
  have hsplit : (",".intercalate parts).toList.splitOn ',' = parts.map String.toList := by
    rw [hjoined]
    refine List.splitOn_intercalate ',' ?_ (by simpa using hne)
    simpa using fun part hpart => (h part hpart).comma
  have hfilter : (parts.map String.toList).filter (· ≠ []) = parts.map String.toList := by
    refine List.filter_eq_self.2 ?_
    simpa using fun part hpart => (h part hpart).ne_empty
  rw [entries, hsplit, map_trim_toList fun part hpart => (h part hpart).trimmed, hfilter,
    List.map_map]
  simp [Function.comp_def]

/-- Lists written one after the other, with commas between them, have the entries of all of them. -/
theorem entries_intercalate_eq_flatMap (texts : List String) :
    entries (",".intercalate texts) = texts.flatMap entries := by
  induction texts with
  | nil => exact entries_empty
  | cons first rest ih =>
    cases rest with
    | nil => simp
    | cons second rest =>
      rw [String.intercalate_cons_cons, entries_append_comma, ih]
      rfl

/-- A name that a chain within a list of chains can hold: without the characters that separate
chains and names, and without blanks around it. -/
structure IsChainName (name : String) : Prop where
  comma : ',' ∉ name.toList
  dot : '.' ∉ name.toList
  trimmed : trim name.toList = name.toList

theorem isChainName_empty : IsChainName "" := ⟨by simp, by simp, rfl⟩

theorem isChainName_of_mem_chainNames {entry name : String} (hcomma : ',' ∉ entry.toList)
    (h : name ∈ chainNames entry) : IsChainName name := by
  obtain ⟨_, htrimmed, rfl⟩ := List.mem_map.1 h
  obtain ⟨piece, hpiece, rfl⟩ := List.mem_map.1 htrimmed
  refine ⟨?_, dot_not_mem_of_mem_chainNames h, ?_⟩
  · rw [String.toList_ofList]
    exact fun hc => hcomma (mem_of_mem_splitOn hpiece ((trim_sublist piece).subset hc)).1
  · rw [String.toList_ofList, trim_trim]

/-- A chain is read back from its names. -/
theorem chainNames_chain {names : List String} (hne : names ≠ [])
    (h : ∀ name ∈ names, IsChainName name) : chainNames (chain names) = names := by
  rw [chainNames, splitOn_chain hne fun name hname => (h name hname).dot,
    map_trim_toList fun name hname => (h name hname).trimmed, List.map_map]
  simp [Function.comp_def]

/-- A chain of more than one name has a text, whatever the names are. -/
theorem chain_cons_cons_ne_empty (first second : String) (rest : List String) :
    chain (first :: second :: rest) ≠ "" := by
  intro h
  have hnil : (chain (first :: second :: rest)).toList = [] := by rw [h, String.toList_empty]
  rw [toList_chain, List.map_cons, List.map_cons, List.intercalate_cons_cons] at hnil
  simp at hnil

/-- A chain of such names can stand in a list of chains, unless it is a single empty name. -/
theorem isEntry_chain {names : List String} (h : ∀ name ∈ names, IsChainName name)
    (hne : chain names ≠ "") : IsEntry (chain names) := by
  refine ⟨hne, ?_, ?_⟩
  · rw [toList_chain]
    intro hcomma
    rcases mem_of_mem_intercalate hcomma with hdot | ⟨_, hpiece, hcomma⟩
    · simp at hdot
    · obtain ⟨name, hname, rfl⟩ := List.mem_map.1 hpiece
      exact (h name hname).comma hcomma
  · rw [toList_chain]
    refine trim_intercalate (by decide) ?_
    simpa using fun name hname => (h name hname).trimmed

end RequestPlan.Text
