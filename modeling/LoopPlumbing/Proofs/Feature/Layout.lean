/- # How a setting is laid out

The grammar of settings as data: a `Layout` is a sign, a name and perhaps items between parentheses, each with
its key, its value and the separators behind it.  `Layout.text` writes it out, and a layout is valid if each part
consists of the characters that it may hold.

A setting is read from its valid layouts and from nothing else (`parse_eq_ok_iff`).  The reason is that each part
ends where its characters end: a key is the longest run of word characters, a value goes up to the next `]`, a gap
is the longest run of separators (`takeWhile_eq_and_dropWhile_eq_iff`).  So the first item of a text can be read off
it (`item?`), which unrolls the reader item by item (`readItems_eq`), and a text has one layout at most
(`Layout.eq_of_text_eq`).

The proof has to deal with the reader as it is, which goes through the text by character with its place as a state,
and with gaps: the separators behind an item may be missing, as in `a[1]b[2]`, and then the next item begins at
once.
-/

import LoopPlumbing.Feature.Setting
import LoopPlumbing.Proofs.Feature.Params
import LoopPlumbing.Proofs.Text.Classes

namespace LoopPlumbing
namespace Setting

open Text

/-- **The longest run of a class at the front of a text**, and what follows it. -/
theorem takeWhile_eq_and_dropWhile_eq_iff {p : Char → Bool} {cs run rest : List Char} :
    cs.takeWhile p = run ∧ cs.dropWhile p = rest ↔
      cs = run ++ rest ∧ (∀ c ∈ run, p c = true) ∧ ∀ c ∈ rest.head?, p c = false := by
  constructor
  · rintro ⟨rfl, rfl⟩
    refine ⟨List.takeWhile_append_dropWhile.symm, fun c hc => List.all_eq_true.1 List.all_takeWhile c hc,
      fun c hc => ?_⟩
    simpa [Option.mem_def.1 hc] using List.head?_dropWhile_not p cs
  · rintro ⟨rfl, inside, boundary⟩
    have stops : rest.takeWhile p = [] ∧ rest.dropWhile p = rest := by
      cases rest with
      | nil => exact ⟨rfl, rfl⟩
      | cons c rest => simp [boundary c rfl]
    rw [List.takeWhile_append_of_pos inside, List.dropWhile_append_of_pos inside, stops.1, stops.2,
      List.append_nil]
    exact ⟨rfl, rfl⟩

/-- The separators are no part of a word. -/
theorem isWord_eq_false_of_isSeparator {c : Char} (h : isSeparator c = true) : isWord c = false := by
  rw [isSeparator, Bool.or_eq_true, decide_eq_true_eq] at h
  rcases h with h | rfl
  · exact isWord_eq_false_of_isBlank h
  · decide +kernel

/-- No character is both a separator and part of a word, so a key ends where a gap begins. -/
theorem isSeparator_eq_false_of_isWord {c : Char} (h : isWord c = true) : isSeparator c = false := by
  refine Bool.eq_false_iff.2 fun separator => ?_
  rw [isWord_eq_false_of_isSeparator separator] at h
  cases h

/-- Whether a character is not the character `a`. -/
def isOther (a c : Char) : Bool := c ≠ a

/-- A text is a run of characters other than `a` exactly if `a` does not occur in it. -/
theorem forall_isOther_iff {a : Char} {cs : List Char} : (∀ c ∈ cs, isOther a c = true) ↔ a ∉ cs := by
  simp only [isOther, decide_eq_true_eq]
  exact ⟨fun h ha => h a ha rfl, fun h c hc e => h (e ▸ hc)⟩

/-- An opening bracket ends a key. -/
theorem isWord_bracket : isWord '[' = false := by decide +kernel

/-- An opening parenthesis ends a name. -/
theorem isWord_parenthesis : isWord '(' = false := by decide +kernel

/-! ### Items, and how they are written -/

/-- An item `key[value]`. -/
structure Item where
  key : List Char
  value : List Char
  /-- The separators behind the item. -/
  gap : List Char

namespace Item

/-- How an item is written, with the gap behind it. -/
def text (i : Item) : List Char := i.key ++ '[' :: (i.value ++ ']' :: i.gap)

/-- Each part holds only characters that it may hold. -/
structure Valid (i : Item) : Prop where
  key_ne_nil : i.key ≠ []
  isWord_of_mem : ∀ c ∈ i.key, isWord c = true
  not_mem_value : ']' ∉ i.value
  isSeparator_of_mem : ∀ c ∈ i.gap, isSeparator c = true

end Item

/-- Items, with separators in front of the first. -/
structure Items where
  gap : List Char
  items : List Item

namespace Items

/-- How items are written, one behind another. -/
def text (p : Items) : List Char := p.gap ++ p.items.flatMap Item.text

/-- Only separators stand in front, and each item is valid. -/
structure Valid (p : Items) : Prop where
  isSeparator_of_mem : ∀ c ∈ p.gap, isSeparator c = true
  valid_of_mem : ∀ i ∈ p.items, i.Valid

/-- The keys with their values. -/
def pairs (p : Items) : List (List Char × List Char) := p.items.map fun i => (i.key, i.value)

end Items

/-! ### Reading items

The reader goes through the text once, with the part that it is in as its state.  The three lemmas on `readItems` say
how far it goes in each of these states; together they read one item off the text (`readItems_eq`).
-/

section Reading

/-- The first item of a text: its key, its value, and the text behind it. -/
def item? (cs : List Char) : Option (List Char × List Char × List Char) :=
  if cs.takeWhile isWord = [] then none
  else
    match cs.dropWhile isWord with
    | [] => none
    | c :: tail =>
      if c = '[' then
        match tail.dropWhile (isOther ']') with
        | [] => none
        | _ :: more => some (cs.takeWhile isWord, tail.takeWhile (isOther ']'), more)
      else none

variable {cs key value more : List Char}

/-- A value goes up to the next bracket. -/
theorem takeWhile_value_iff :
    cs.takeWhile (isOther ']') = value ∧ (∃ c, cs.dropWhile (isOther ']') = c :: more) ↔
      cs = value ++ ']' :: more ∧ ']' ∉ value := by
  constructor
  · rintro ⟨run, c, rest⟩
    obtain ⟨rfl, inside, boundary⟩ := takeWhile_eq_and_dropWhile_eq_iff.1 ⟨run, rest⟩
    obtain rfl : c = ']' := by simpa [isOther] using boundary c rfl
    exact ⟨rfl, forall_isOther_iff.1 inside⟩
  · rintro ⟨rfl, absent⟩
    obtain ⟨run, rest⟩ := takeWhile_eq_and_dropWhile_eq_iff.2
      ⟨rfl, forall_isOther_iff.2 absent, show ∀ c ∈ (']' :: more).head?, isOther ']' c = false by simp [isOther]⟩
    exact ⟨run, ']', rest⟩

/-- **The first item of a text.** -/
theorem item?_eq_some_iff :
    item? cs = some (key, value, more) ↔
      cs = key ++ '[' :: (value ++ ']' :: more) ∧ key ≠ [] ∧ (∀ c ∈ key, isWord c = true) ∧
        ']' ∉ value := by
  constructor
  · intro h
    unfold item? at h
    split at h
    · cases h
    · next ne =>
      split at h
      · cases h
      · next c tail rest =>
        obtain ⟨split, inside, -⟩ := takeWhile_eq_and_dropWhile_eq_iff.1 ⟨rfl, rest⟩
        split at h
        · next bracket =>
          split at h
          · cases h
          · next c' more' rest' =>
            cases h
            obtain ⟨tail_eq, absent⟩ := takeWhile_value_iff.1 ⟨rfl, c', rest'⟩
            exact ⟨by rw [← tail_eq, ← bracket]; exact split, ne, inside, absent⟩
        · cases h
  · rintro ⟨rfl, ne, inside, absent⟩
    obtain ⟨run, rest⟩ := takeWhile_eq_and_dropWhile_eq_iff.2
      ⟨rfl, inside, show ∀ c ∈ ('[' :: (value ++ ']' :: more)).head?, isWord c = false by
        simp [isWord_bracket]⟩
    obtain ⟨run', c, rest'⟩ := takeWhile_value_iff.2
      (⟨rfl, absent⟩ : value ++ ']' :: more = value ++ ']' :: more ∧ ']' ∉ value)
    rw [item?, run, rest, if_neg ne]
    simp only [if_true, rest', run']

/-- Separators between items are passed over. -/
theorem readItems_between_dropWhile (cs : List Char) :
    readItems .between (cs.dropWhile isSeparator) = readItems .between cs := by
  induction cs with
  | nil => rfl
  | cons c cs ih =>
      by_cases h : isSeparator c = true
      · rw [List.dropWhile_cons_of_pos h, ih, readItems, if_pos h]
      · rw [List.dropWhile_cons_of_neg h]

/-- In a value, the reader takes everything up to the next closing bracket, or fails at the end of the text. -/
theorem readItems_inValue (key value cs : List Char) :
    readItems (.inValue key value) cs =
      match cs.dropWhile (isOther ']') with
      | [] => none
      | _ :: more => ((key, value ++ cs.takeWhile (isOther ']')) :: ·) <$> readItems .between more := by
  induction cs generalizing value with
  | nil => rfl
  | cons c cs ih =>
      by_cases h : c = ']'
      · simp [readItems, isOther, h]
      · have more : isOther ']' c = true := by simpa [isOther] using h
        rw [readItems, if_neg h, ih, List.dropWhile_cons_of_pos more, List.takeWhile_cons_of_pos more,
          List.append_assoc]
        rfl

/-- In a key, the reader takes the word that follows and needs an opening bracket behind it. -/
theorem readItems_inKey (key cs : List Char) :
    readItems (.inKey key) cs =
      match cs.dropWhile isWord with
      | [] => none
      | c :: tail =>
        if c = '[' then readItems (.inValue (key ++ cs.takeWhile isWord) []) tail else none := by
  induction cs generalizing key with
  | nil => rfl
  | cons c cs ih =>
      by_cases h : isWord c = true
      · rw [readItems, if_pos h, ih, List.dropWhile_cons_of_pos h, List.takeWhile_cons_of_pos h,
          List.append_assoc]
        rfl
      · rw [readItems, if_neg h, List.dropWhile_cons_of_neg h, List.takeWhile_cons_of_neg h,
          List.append_nil]

/-- **Items are read one by one:** separators are dropped, and then either the text ends or the first item is
read off it. -/
theorem readItems_eq (cs : List Char) :
    readItems .between cs =
      if cs.dropWhile isSeparator = [] then some []
      else (item? (cs.dropWhile isSeparator)).bind fun x =>
        ((x.1, x.2.1) :: ·) <$> readItems .between x.2.2 := by
  rw [← readItems_between_dropWhile]
  have boundary := (takeWhile_eq_and_dropWhile_eq_iff.1 ⟨rfl, rfl⟩ :
    cs = cs.takeWhile isSeparator ++ cs.dropWhile isSeparator ∧ _).2.2
  cases rest : cs.dropWhile isSeparator with
  | nil => rfl
  | cons c tail =>
      have between : isSeparator c = false := boundary c (by rw [rest]; rfl)
      rw [readItems, if_neg (by simp [between]), if_neg (List.cons_ne_nil _ _)]
      split
      · next word =>
        rw [readItems_inKey, item?, List.takeWhile_cons_of_pos word, List.dropWhile_cons_of_pos word,
          if_neg (List.cons_ne_nil _ _)]
        split
        · rfl
        · split
          · rw [readItems_inValue]
            split
            · rfl
            · rfl
          · rfl
      · next word =>
        rw [item?, List.takeWhile_cons_of_neg word, if_pos rfl]
        rfl

end Reading

namespace Items

/-- What follows the separators in front is the first item or the end. -/
theorem Valid.takeWhile_text {p : Items} (h : p.Valid) :
    p.text.takeWhile isSeparator = p.gap ∧
      p.text.dropWhile isSeparator = p.items.flatMap Item.text := by
  refine takeWhile_eq_and_dropWhile_eq_iff.2 ⟨rfl, h.isSeparator_of_mem, fun c hc => ?_⟩
  obtain ⟨gap, items⟩ := p
  cases items with
  | nil => simp at hc
  | cons i items =>
      have valid := h.valid_of_mem i List.mem_cons_self
      cases key : i.key with
      | nil => exact absurd key valid.key_ne_nil
      | cons k key' =>
          obtain rfl : k = c := by simpa [Item.text, key] using hc
          exact isSeparator_eq_false_of_isWord (valid.isWord_of_mem k (key ▸ List.mem_cons_self))

/-- Without its first item a list of items is valid, with the gap of that item in front. -/
theorem Valid.tail {gap : List Char} {i : Item} {items : List Item} (h : Valid ⟨gap, i :: items⟩) :
    Valid ⟨i.gap, items⟩ :=
  ⟨(h.valid_of_mem i List.mem_cons_self).isSeparator_of_mem,
    fun j hj => h.valid_of_mem j (List.mem_cons_of_mem _ hj)⟩

/-- The first item of a layout is the first item of its text. -/
theorem Valid.item?_text {gap : List Char} {i : Item} {items : List Item} (h : Valid ⟨gap, i :: items⟩) :
    item? ((i :: items).flatMap Item.text) = some (i.key, i.value, text ⟨i.gap, items⟩) := by
  have valid := h.valid_of_mem i List.mem_cons_self
  refine item?_eq_some_iff.2 ⟨?_, valid.key_ne_nil, valid.isWord_of_mem, valid.not_mem_value⟩
  simp [Item.text, text]

/-- Items have no text only if there are none. -/
theorem flatMap_text_eq_nil_iff {items : List Item} : items.flatMap Item.text = [] ↔ items = [] := by
  cases items with
  | nil => simp
  | cons i items => simp [Item.text]

/-- Where the gap in front ends, the first item begins; so two valid lists with one text have the same gap in front.
-/
theorem Valid.parts_eq_of_text_eq {p q : Items} (hp : p.Valid) (hq : q.Valid) (same : p.text = q.text) :
    p.gap = q.gap ∧ p.items.flatMap Item.text = q.items.flatMap Item.text := by
  rw [← hp.takeWhile_text.1, ← hp.takeWhile_text.2, ← hq.takeWhile_text.1, ← hq.takeWhile_text.2, same]
  exact ⟨rfl, rfl⟩

/-- **A text is laid out as items in one way at most.** -/
theorem eq_of_text_eq {p q : Items} (hp : p.Valid) (hq : q.Valid) (same : p.text = q.text) : p = q := by
  obtain ⟨gap, items⟩ := p
  obtain ⟨gap', items'⟩ := q
  induction items generalizing gap gap' items' with
  | nil =>
      obtain ⟨rfl, rest⟩ := hp.parts_eq_of_text_eq hq same
      obtain rfl : items' = [] := flatMap_text_eq_nil_iff.1 rest.symm
      rfl
  | cons i items ih =>
      obtain ⟨rfl, rest⟩ := hp.parts_eq_of_text_eq hq same
      cases items' with
      | nil => exact absurd (flatMap_text_eq_nil_iff.1 rest) (List.cons_ne_nil _ _)
      | cons i' items' =>
          obtain ⟨key, value, gap⟩ := i
          obtain ⟨key', value', gap'⟩ := i'
          have firsts := hp.item?_text.symm.trans ((congrArg item? rest).trans hq.item?_text)
          obtain ⟨rfl, rfl, tails⟩ : key = key' ∧ value = value' ∧ text ⟨gap, items⟩ = text ⟨gap', items'⟩ := by
            simpa using firsts
          cases ih gap hp.tail gap' items' hq.tail tails
          rfl

end Items

/-! ### What the reader accepts

By induction on the text: the first item is read off, and what is left is shorter.
-/

/-- **The texts that are read as items** are those that are laid out as items, and the keys and values are those
of the layout. -/
theorem readItems_eq_some_iff {cs : List Char} {pairs : List (List Char × List Char)} :
    readItems .between cs = some pairs ↔ ∃ p : Items, p.Valid ∧ p.text = cs ∧ p.pairs = pairs := by
  constructor
  · intro h
    -- By induction on the length of the text, since an item is not empty.
    induction len : cs.length using Nat.strong_induction_on generalizing cs pairs with
    | _ n ih =>
        obtain ⟨split, inside, -⟩ := (takeWhile_eq_and_dropWhile_eq_iff.1 ⟨rfl, rfl⟩ :
          cs = cs.takeWhile isSeparator ++ cs.dropWhile isSeparator ∧ _)
        rw [readItems_eq] at h
        split at h
        · next ends =>
          cases h
          rw [ends, List.append_nil] at split
          exact ⟨⟨cs, []⟩, ⟨split ▸ inside, fun _ => nofun⟩, List.append_nil _, rfl⟩
        · obtain ⟨⟨key, value, more⟩, first, h⟩ := Option.bind_eq_some_iff.1 h
          obtain ⟨pairs', read, rfl⟩ := Option.map_eq_some_iff.1 h
          obtain ⟨rest, ne, word, absent⟩ := item?_eq_some_iff.1 first
          rw [rest] at split
          have shorter : more.length < n := by
            rw [← len, split]
            simp only [List.length_append, List.length_cons]
            omega
          obtain ⟨⟨gap, items⟩, valid, rfl, rfl⟩ := ih _ shorter read rfl
          refine ⟨⟨cs.takeWhile isSeparator, ⟨key, value, gap⟩ :: items⟩, ⟨inside, ?_⟩, ?_, rfl⟩
          · exact List.forall_mem_cons.2
              ⟨⟨ne, word, absent, valid.isSeparator_of_mem⟩, valid.valid_of_mem⟩
          · refine Eq.trans ?_ split.symm
            simp [Items.text, Item.text]
  · rintro ⟨⟨gap, items⟩, valid, rfl, rfl⟩
    induction items generalizing gap with
    | nil =>
        rw [readItems_eq, valid.takeWhile_text.2]
        rfl
    | cons i items ih =>
        have ne : (i :: items).flatMap Item.text ≠ [] := Items.flatMap_text_eq_nil_iff.not.2 (List.cons_ne_nil _ _)
        rw [readItems_eq, valid.takeWhile_text.2, if_neg ne, valid.item?_text, Option.bind_some, ih _ valid.tail]
        rfl

/-! ### Sign, name and enclosure

The name is the longest run of word characters behind the sign.  The enclosure is the rest, if it begins and ends
with a parenthesis; what is inside may hold parentheses again, but no line feed.
-/

/-- The sign of a setting. -/
def signOf (enabled : Bool) : Char := if enabled then '+' else '-'

/-- What stands behind the name: nothing, or a text between parentheses. -/
def enclosure : Option (List Char) → List Char
  | none => []
  | some inner => '(' :: (inner ++ [')'])

/-- A character is read as the sign with which a setting so switched is written. -/
theorem sign?_eq_some_iff {c : Char} {enabled : Bool} : sign? c = some enabled ↔ c = signOf enabled := by
  rw [sign?, signOf]
  cases enabled
  · by_cases h : c = '+'
    · simp [h]
    · simp [h]
  · by_cases h : c = '+'
    · simp [h]
    · simp [h]

/-- A text is enclosed if it begins and ends with a parenthesis and holds no line feed between them. -/
theorem enclosed?_eq_some_iff {cs inner : List Char} :
    enclosed? cs = some inner ↔ cs = '(' :: (inner ++ [')']) ∧ '\n' ∉ inner := by
  constructor
  · intro h
    unfold enclosed? at h
    split at h
    · next rest =>
      split at h
      · next closes =>
        simp only [Bool.and_eq_true, decide_eq_true_eq] at closes
        obtain ⟨inner', rfl⟩ := List.getLast?_eq_some_iff.1 closes.1
        rw [List.dropLast_concat] at h closes
        cases h
        exact ⟨rfl, closes.2⟩
      · cases h
    · cases h
  · rintro ⟨rfl, absent⟩
    simp [enclosed?, absent]

/-- **Sign, name and enclosure** of a text. -/
theorem split?_eq_some_iff {cs name : List Char} {enabled : Bool} {inner : Option (List Char)} :
    split? cs = some (enabled, name, inner) ↔
      cs = signOf enabled :: (name ++ enclosure inner) ∧ name ≠ [] ∧ (∀ c ∈ name, isWord c = true) ∧
        ∀ i ∈ inner, '\n' ∉ i := by
  constructor
  · intro h
    unfold split? at h
    split at h
    · cases h
    · next c rest =>
      obtain ⟨sign, signed, named⟩ := Option.bind_eq_some_iff.1 h
      clear h
      dsimp only at named
      split at named
      · cases named
      · next ne =>
        rw [List.isEmpty_iff] at ne
        have split := (List.takeWhile_append_dropWhile : rest.takeWhile isWord ++ rest.dropWhile isWord = rest)
        have inside : ∀ c ∈ rest.takeWhile isWord, isWord c = true := List.all_eq_true.1 List.all_takeWhile
        obtain rfl := sign?_eq_some_iff.1 signed
        split at named
        · next ends =>
          cases named
          rw [ends] at split
          exact ⟨congrArg _ split.symm, ne, inside, fun _ => nofun⟩
        · obtain ⟨inner', enclosed, eq⟩ := Option.map_eq_some_iff.1 named
          cases eq
          obtain ⟨rest_eq, absent⟩ := enclosed?_eq_some_iff.1 enclosed
          rw [rest_eq] at split
          exact ⟨congrArg _ split.symm, ne, inside, fun i hi => Option.mem_some.1 hi ▸ absent⟩
  · rintro ⟨rfl, ne, inside, absent⟩
    have boundary : ∀ c ∈ (enclosure inner).head?, isWord c = false := by
      cases inner with
      | none => nofun
      | some i => simp [enclosure, isWord_parenthesis]
    obtain ⟨run, rest⟩ := takeWhile_eq_and_dropWhile_eq_iff.2 ⟨rfl, inside, boundary⟩
    have signed : sign? (signOf enabled) = some enabled := sign?_eq_some_iff.2 rfl
    simp only [split?, signed, Option.bind_eq_bind, Option.bind_some, run, rest, List.isEmpty_iff, if_neg ne]
    cases inner with
    | none => rfl
    | some i =>
        have enclosed := enclosed?_eq_some_iff.2 ⟨rfl, absent i rfl⟩
        simp only [enclosure, enclosed, Option.map_eq_map, Option.map_some]

/-! ### Layouts of settings -/

/-- How a setting is laid out: its sign, its name, and what stands between parentheses if they are written. -/
structure Layout where
  enabled : Bool
  name : List Char
  params : Option Items

namespace Layout

/-- How a layout is written. -/
def text (l : Layout) : List Char := signOf l.enabled :: (l.name ++ enclosure (l.params.map Items.text))

/-- Each part holds only characters that it may hold, and there is no line feed between the parentheses. -/
structure Valid (l : Layout) : Prop where
  name_ne_nil : l.name ≠ []
  isWord_of_mem : ∀ c ∈ l.name, isWord c = true
  valid_of_mem : ∀ p ∈ l.params, p.Valid
  not_mem_params : ∀ p ∈ l.params, '\n' ∉ p.text

/-- The keys with their values, in order. -/
def pairs (l : Layout) : List (String × String) :=
  ((l.params.map Items.pairs).getD []).map fun i => (.ofList i.1, .ofList i.2)

/-- The setting that is laid out. -/
def setting (l : Layout) : Setting := ⟨.ofList l.name, l.enabled, .ofPairs l.pairs⟩

/-- A layout is split at its sign, its name and its enclosure, since no bracket is part of a word. -/
theorem Valid.split?_text {l : Layout} (h : l.Valid) :
    split? l.text = some (l.enabled, l.name, l.params.map Items.text) := by
  refine split?_eq_some_iff.2 ⟨rfl, h.name_ne_nil, h.isWord_of_mem, fun i hi => ?_⟩
  obtain ⟨p, hp, rfl⟩ := Option.map_eq_some_iff.1 hi
  exact h.not_mem_params p hp

/-- **A text is laid out as a setting in one way at most.** -/
theorem eq_of_text_eq {l m : Layout} (hl : l.Valid) (hm : m.Valid) (same : l.text = m.text) : l = m := by
  have splits := hl.split?_text.symm.trans ((congrArg split? same).trans hm.split?_text)
  obtain ⟨enabled, name, params⟩ := l
  obtain ⟨enabled', name', params'⟩ := m
  obtain ⟨rfl, rfl, texts⟩ : enabled = enabled' ∧ name = name' ∧ params.map Items.text = params'.map Items.text := by
    simpa using splits
  cases params with
  | none =>
      obtain rfl : params' = none := by simpa using texts.symm
      rfl
  | some p =>
      obtain ⟨q, rfl, texts⟩ := Option.map_eq_some_iff.1 texts.symm
      rw [Items.eq_of_text_eq (hl.valid_of_mem p rfl) (hm.valid_of_mem q rfl) (Option.some.inj texts)]

end Layout

/-! ### Settings are read from their layouts -/

/-- **A setting is read from its valid layouts and from nothing else.** -/
theorem parse_eq_ok_iff {input : String} {s : Setting} :
    parse input = .ok s ↔ ∃ l : Layout, l.Valid ∧ l.text = trim input.toList ∧ l.setting = s := by
  constructor
  · intro h
    unfold parse at h
    split at h
    · cases h
    · next enabled name inner parts =>
      split at h
      · cases h
      · next pairs read =>
        cases h
        obtain ⟨text, ne, word, absent⟩ := split?_eq_some_iff.1 parts
        cases inner with
        | none =>
            cases read
            exact ⟨⟨enabled, name, none⟩, ⟨ne, word, nofun, nofun⟩, text.symm, rfl⟩
        | some inner =>
            obtain ⟨p, valid, rfl, rfl⟩ := readItems_eq_some_iff.1 read
            exact ⟨⟨enabled, name, some p⟩, ⟨ne, word, fun _ hp => Option.mem_some.1 hp ▸ valid,
              fun _ hp => Option.mem_some.1 hp ▸ absent _ rfl⟩, text.symm, rfl⟩
  · rintro ⟨l, valid, text, rfl⟩
    rw [parse, ← text, valid.split?_text]
    obtain ⟨enabled, name, params⟩ := l
    cases params with
    | none => rfl
    | some p =>
        have read : readItems .between p.text = some p.pairs :=
          readItems_eq_some_iff.2 ⟨p, valid.valid_of_mem p rfl, rfl, rfl⟩
        simp only [Option.map_some, Option.getD_some, read]
        rfl

/-- What is no setting is a fault that quotes it. -/
theorem parse_eq_error {input : String} {fault : Fault} (h : parse input = .error fault) :
    fault = .invalidSetting (.notASetting input) ∨ fault = .invalidSetting (.malformedParameters input) := by
  unfold parse at h
  split at h
  · cases h
    exact .inl rfl
  · split at h
    · cases h
      exact .inr rfl
    · cases h

end Setting
end LoopPlumbing
