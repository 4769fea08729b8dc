/- # Settings written and read back

Reading and writing are inverse on the settings that can be written at all: name and keys are not empty and
consist of word characters, each key has a value, and no value holds `]` or a line feed (`Setting.WellFormed`).  Any
other setting is lost in writing; a key without values, say, leaves no trace.

Both halves meet at the layouts.  The text of a well-formed setting is the text of a layout, that with one space
between items and no other separator (`Setting.layout`), and the layout gives the setting back since parameters are
made from their pairs (`Params.ofPairs_pairs`).  Conversely what a layout gives is well-formed, since the characters
of name, keys and values stand in the text between the right brackets.
-/

import LoopPlumbing.Proofs.Feature.Layout

namespace LoopPlumbing
namespace Setting

open Text

/-- Names and keys are not empty and consist of word characters. -/
def IsName (s : String) : Prop := s ≠ "" ∧ ∀ c ∈ s.toList, isWord c = true

/-- Whether a text is a name is settled by going through its characters. -/
instance (s : String) : Decidable (IsName s) :=
  decidable_of_iff (s ≠ "" ∧ s.toList.all isWord = true) (and_congr_right fun _ => List.all_eq_true)

/-- A setting that can be written. -/
structure WellFormed (s : Setting) : Prop where
  isName_name : IsName s.name
  isName_key : ∀ e ∈ s.params.entries, IsName e.1
  values_ne_nil : ∀ e ∈ s.params.entries, e.2 ≠ []
  not_mem_value : ∀ e ∈ s.params.entries, ∀ v ∈ e.2, ']' ∉ v.toList ∧ '\n' ∉ v.toList

/-- Whether a setting can be written is settled by going through its entries. -/
instance (s : Setting) : Decidable s.WellFormed :=
  decidable_of_iff
    (IsName s.name ∧ (∀ e ∈ s.params.entries, IsName e.1) ∧ (∀ e ∈ s.params.entries, e.2 ≠ []) ∧
      ∀ e ∈ s.params.entries, ∀ v ∈ e.2, ']' ∉ v.toList ∧ '\n' ∉ v.toList)
    ⟨fun ⟨name, key, ne, value⟩ => ⟨name, key, ne, value⟩,
      fun h => ⟨h.isName_name, h.isName_key, h.values_ne_nil, h.not_mem_value⟩⟩

/-! ### What is read can be written -/

section Reading

variable {l : Layout}

/-- The pairs of a layout are the keys and values of its items. -/
theorem Layout.mem_pairs_iff {key value : String} :
    (key, value) ∈ l.pairs ↔
      ∃ p ∈ l.params, ∃ i ∈ p.items, String.ofList i.key = key ∧ String.ofList i.value = value := by
  cases params : l.params with
  | none => simp [pairs, params]
  | some p => simp [pairs, params, Items.pairs]

/-- A run of word characters that is not empty is a name. -/
theorem isName_ofList {cs : List Char} (ne : cs ≠ []) (word : ∀ c ∈ cs, isWord c = true) :
    IsName (.ofList cs) := by
  refine ⟨fun e => ne ?_, by rwa [String.toList_ofList]⟩
  rw [← String.toList_ofList (l := cs), e]
  rfl

/-- Keys and values are those of items, and the text of the layout holds the items. -/
theorem Layout.Valid.wellFormed (h : l.Valid) : l.setting.WellFormed := by
  have keyed : ∀ {key value}, (key, value) ∈ l.pairs → IsName key := fun mem => by
    obtain ⟨p, hp, i, hi, rfl, -⟩ := mem_pairs_iff.1 mem
    have valid := (h.valid_of_mem p hp).valid_of_mem i hi
    exact isName_ofList valid.key_ne_nil valid.isWord_of_mem
  have valued : ∀ {key value}, (key, value) ∈ l.pairs →
      ']' ∉ value.toList ∧ '\n' ∉ value.toList := fun mem => by
    obtain ⟨p, hp, i, hi, -, rfl⟩ := mem_pairs_iff.1 mem
    have valid := (h.valid_of_mem p hp).valid_of_mem i hi
    have held : ∀ c ∈ i.value, c ∈ p.text := fun c hc => by
      refine List.mem_append_right _ (List.mem_flatMap.2 ⟨i, hi, ?_⟩)
      simp [Item.text, hc]
    rw [String.toList_ofList]
    exact ⟨valid.not_mem_value, fun feed => h.not_mem_params p hp (held _ feed)⟩
  refine ⟨isName_ofList h.name_ne_nil h.isWord_of_mem, ?_, ?_, ?_⟩
  · rintro ⟨key, values⟩ he
    obtain ⟨ne, rfl⟩ := Params.mem_entries_ofPairs_iff.1 he
    obtain ⟨v, hv⟩ := List.exists_mem_of_ne_nil _ ne
    exact keyed (Params.mem_valuesOf_iff.1 hv)
  · rintro ⟨key, values⟩ he
    exact (Params.mem_entries_ofPairs_iff.1 he).1
  · rintro ⟨key, values⟩ he v hv
    obtain ⟨-, rfl⟩ := Params.mem_entries_ofPairs_iff.1 he
    exact valued (Params.mem_valuesOf_iff.1 hv)

end Reading

/-! ### What is written can be read

A well-formed setting is written as a layout of its own; its text and its setting are the two that matter.
-/

section Writing

/-- Items with one space between them. -/
def spaced : List (String × String) → List Item
  | [] => []
  | e :: rest => ⟨e.1.toList, e.2.toList, if rest = [] then [] else [' ']⟩ :: spaced rest

/-- The layout in which a setting is written. -/
def layout (s : Setting) : Layout where
  enabled := s.enabled
  name := s.name.toList
  params := if s.params.isEmpty then none else some ⟨[], spaced s.params.pairs⟩

/-- How an item of the text is spelt, character by character. -/
theorem toList_itemText (key value : String) :
    (itemText key value).toList = key.toList ++ '[' :: (value.toList ++ [']']) := by
  simp [itemText]

/-- Joined with spaces, the items have the text of a layout with single spaces between them. -/
theorem text_spaced (l : List (String × String)) :
    (spaced l).flatMap Item.text = (" ".intercalate (l.map fun e => itemText e.1 e.2)).toList := by
  induction l with
  | nil => rfl
  | cons e l ih =>
      rw [spaced, List.flatMap_cons, ih]
      cases l with
      | nil => simp [Item.text, toList_itemText]
      | cons e' l =>
          simp only [List.map_cons, String.intercalate_cons_cons, String.toList_append, toList_itemText]
          simp [Item.text]

/-- The items written for pairs hold these pairs, in order. -/
theorem pairs_spaced (l : List (String × String)) :
    (spaced l).map (fun i => (String.ofList i.key, String.ofList i.value)) = l := by
  induction l with
  | nil => rfl
  | cons e l ih =>
      rw [spaced, List.map_cons, ih, String.ofList_toList, String.ofList_toList]

/-- An item that is written holds one of the pairs, and there are only spaces behind it. -/
theorem mem_spaced {l : List (String × String)} {i : Item} (h : i ∈ spaced l) :
    (∃ e ∈ l, i.key = e.1.toList ∧ i.value = e.2.toList) ∧ ∀ c ∈ i.gap, c = ' ' := by
  induction l with
  | nil => cases h
  | cons e l ih =>
      rcases List.mem_cons.1 h with rfl | h
      · refine ⟨⟨e, List.mem_cons_self, rfl, rfl⟩, fun c hc => ?_⟩
        dsimp only at hc
        split at hc
        · cases hc
        · exact List.mem_singleton.1 hc
      · obtain ⟨⟨e', mem, texts⟩, gap⟩ := ih h
        exact ⟨⟨e', List.mem_cons_of_mem _ mem, texts⟩, gap⟩

/-- The text of a setting is the text of its layout. -/
theorem text_layout (s : Setting) : s.layout.text = s.text.toList := by
  have sign : (if s.enabled then "+" else "-").toList = [signOf s.enabled] := by
    cases s.enabled
    · rfl
    · rfl
  have items : s.params.entries.flatMap (fun e => e.2.map (itemText e.1)) =
      s.params.pairs.map fun e => itemText e.1 e.2 := by
    simp [Params.pairs, List.map_flatMap, Function.comp_def]
  rw [text, paramsText, items, Layout.text, layout, String.toList_append, String.toList_append, sign]
  by_cases none : s.params.isEmpty
  · simp [none, enclosure]
  · simp [none, enclosure, Items.text, text_spaced]

/-- A well-formed setting is what its layout is read as: no key is lost, for each has a value. -/
theorem WellFormed.setting_layout {s : Setting} (h : s.WellFormed) : s.layout.setting = s := by
  have pairs : s.layout.pairs = s.params.pairs := by
    by_cases none : s.params.isEmpty
    · have noEntries : s.params.entries = [] := List.isEmpty_iff.1 none
      simp [Layout.pairs, layout, none, Params.pairs, noEntries]
    · simpa [Layout.pairs, layout, none, Items.pairs, Function.comp_def] using pairs_spaced s.params.pairs
  rw [Layout.setting, pairs, Params.ofPairs_pairs h.values_ne_nil, layout, String.ofList_toList]

/-- A line feed is no part of a word, so names and keys hold none. -/
theorem isWord_lineFeed : isWord '\n' = false := isWord_eq_false_of_isBlank (by decide)

/-- The items in which a setting is written are valid and hold no line feed. -/
theorem WellFormed.of_mem_spaced {s : Setting} (h : s.WellFormed) {i : Item} (hi : i ∈ spaced s.params.pairs) :
    i.Valid ∧ '\n' ∉ i.text := by
  obtain ⟨⟨e, mem, key, value⟩, gap⟩ := mem_spaced hi
  obtain ⟨entry, he, pair⟩ := List.mem_flatMap.1 mem
  obtain ⟨v, hv, rfl⟩ := List.mem_map.1 pair
  have named : IsName entry.1 := h.isName_key entry he
  obtain ⟨bracket, feed⟩ := h.not_mem_value entry he v hv
  have noFeed : '\n' ∉ entry.1.toList := fun mem => by
    have word := named.2 _ mem
    rw [isWord_lineFeed] at word
    cases word
  refine ⟨⟨?_, ?_, ?_, ?_⟩, ?_⟩
  · rw [key]
    exact String.toList_eq_nil_iff.not.2 named.1
  · rw [key]
    exact named.2
  · rw [value]
    exact bracket
  · exact fun c hc => gap c hc ▸ (by decide)
  · have noGap : '\n' ∉ i.gap := fun mem => absurd (gap _ mem) (by decide)
    simp [Item.text, key, value, noFeed, feed, noGap]

/-- The layout in which a well-formed setting is written is valid. -/
theorem WellFormed.valid_layout {s : Setting} (h : s.WellFormed) : s.layout.Valid := by
  have params : ∀ p ∈ s.layout.params, p = ⟨[], spaced s.params.pairs⟩ := fun p hp => by
    simp only [layout] at hp
    split at hp
    · cases hp
    · exact (Option.mem_some.1 hp).symm
  refine ⟨String.toList_eq_nil_iff.not.2 h.isName_name.1, h.isName_name.2, fun p hp => ?_, fun p hp => ?_⟩
  · obtain rfl := params p hp
    exact ⟨nofun, fun i hi => (h.of_mem_spaced hi).1⟩
  · obtain rfl := params p hp
    intro feed
    obtain ⟨i, hi, feed⟩ := List.mem_flatMap.1 feed
    exact (h.of_mem_spaced hi).2 feed

/-- A layout leaves nothing to trim. -/
theorem Layout.Valid.trim_text {l : Layout} (h : l.Valid) : trim l.text = l.text := by
  refine trim_eq_self ?_ ?_
  · intro c hc
    obtain rfl : signOf l.enabled = c := Option.mem_some.1 hc
    cases l.enabled
    · decide
    · decide
  · intro c hc
    cases params : l.params with
    | none =>
        obtain ⟨init, d, name⟩ := (List.eq_nil_or_concat l.name).resolve_left h.name_ne_nil
        have text : l.text = (signOf l.enabled :: init) ++ [d] := by simp [Layout.text, params, enclosure, name]
        rw [text, List.getLast?_concat, Option.mem_some] at hc
        have word : isWord c = true := h.isWord_of_mem c (by simp [name, hc])
        exact Bool.eq_false_iff.2 fun blank => by simp [isWord_eq_false_of_isBlank blank] at word
    | some p =>
        have text : l.text = (signOf l.enabled :: (l.name ++ '(' :: p.text)) ++ [')'] := by
          simp [Layout.text, params, enclosure]
        rw [text, List.getLast?_concat, Option.mem_some] at hc
        exact hc ▸ (by decide)

end Writing

/-- **What is read can be written.** -/
theorem wellFormed_of_parse {input : String} {s : Setting} (h : parse input = .ok s) : s.WellFormed := by
  obtain ⟨l, valid, -, rfl⟩ := parse_eq_ok_iff.1 h
  exact valid.wellFormed

/-- **What is written is read back.** -/
theorem WellFormed.parse_text {s : Setting} (h : s.WellFormed) : parse s.text = .ok s := by
  refine parse_eq_ok_iff.2 ⟨s.layout, h.valid_layout, ?_, h.setting_layout⟩
  rw [← text_layout, h.valid_layout.trim_text]

/-- **Writing and reading are inverse.**  Exactly the well-formed settings are read back from their text, and only
such settings are ever read.  So a text that was read, written and read again gives the same setting, and writing it
once more changes nothing. -/
theorem parse_text_iff :
    (∀ s : Setting, parse s.text = .ok s ↔ s.WellFormed) ∧
      (∀ input s, parse input = .ok s → s.WellFormed ∧ parse s.text = .ok s) ∧
      ∀ input, ((parse input).map text >>= fun t => (parse t).map text) = (parse input).map text := by
  refine ⟨fun s => ⟨wellFormed_of_parse, WellFormed.parse_text⟩, fun input s h => ?_, fun input => ?_⟩
  · exact ⟨wellFormed_of_parse h, (wellFormed_of_parse h).parse_text⟩
  · cases h : parse input with
    | error fault => rfl
    | ok s =>
        have again : parse s.text = .ok s := (wellFormed_of_parse h).parse_text
        exact congrArg (Except.map text) again

/-- A setting with brackets, a parenthesis, a comma and a blank in its values. -/
def intricate : Setting := ⟨"X", true, [("a", ["1", "("]), ("b", ["[), c[x"])], by decide +kernel⟩

/-- It is written with its keys in order and one space between items, whatever stood there when it was read. -/
theorem parse_text_intricate :
    parse " +X(b[[), c[x]a[1],,a[(])\n" = .ok intricate ∧ intricate.text = "+X(a[1] a[(] b[[), c[x])" ∧
      intricate.WellFormed ∧ parse intricate.text = .ok intricate := by
  have wellFormed : intricate.WellFormed := by decide +kernel
  exact ⟨by decide +kernel, by decide +kernel, wellFormed, (parse_text_iff.1 intricate).2 wellFormed⟩

end Setting
end LoopPlumbing
