/- # Settings by regular expressions

Settings can also be read by three regular expressions: one for the whole setting, one that tells whether a text is
a list of items, and one that is searched for item by item (`parsedByExpressions`).  None of them knows the whole
grammar, and each divides the text on its own.

They agree with each other and with the reader (`parse_eq_parsedByExpressions`), since what each of them reads is a
piece of a layout: the first one reads sign, name and enclosure (`reads_settingExpression`), the second one items
(`reads_paramsExpression`), and the third one the first item of a text and nothing in a gap (`find?_text`).

The parentheses within an enclosure and the brackets within a value are where reading piece by piece could go wrong.
The second expression is anchored and excludes what the third one would otherwise skip.
-/

import LoopPlumbing.Proofs.Feature.Layout
import LoopPlumbing.Proofs.Text.Expression

namespace LoopPlumbing
namespace Setting

open Text Expression

/-- The class `[+-]`: a plus sign or a hyphen. -/
def isSign (c : Char) : Bool := c = '+' || c = '-'

/-- The expression `(?:\((.*)\))?`. -/
def enclosureExpression : Expression :=
  .optional <| .seq (.char '(') <| .seq (.group 3 (.star (.one (isOther '\n')))) (.char ')')

/-- The expression `([+-])(\w+)(?:\((.*)\))?`. -/
def settingExpression : Expression :=
  .seq (.group 1 (.one isSign)) <| .seq (.group 2 (.plus (.one isWord))) enclosureExpression

/-- The expression `\w+\[[^\]]*\][\s,]*`. -/
def itemExpression : Expression :=
  .seq (.plus (.one isWord)) <| .seq (.char '[') <| .seq (.star (.one (isOther ']'))) <|
    .seq (.char ']') (.star (.one isSeparator))

/-- The expression `[\s,]*(?:\w+\[[^\]]*\][\s,]*)*`. -/
def paramsExpression : Expression := .seq (.star (.one isSeparator)) (.star itemExpression)

/-- The expression `(\w+)\[([^\]]*)\]`. -/
def paramExpression : Expression :=
  .seq (.group 1 (.plus (.one isWord))) <| .seq (.char '[') <|
    .seq (.group 2 (.star (.one (isOther ']')))) (.char ']')

/-- The items that are found in a text. -/
def foundItems (cs : List Char) : List (List Char × List Char) :=
  (paramExpression.findAll cs).map fun m => ((m.group? 1).getD [], (m.group? 2).getD [])

/-- Reads a setting by the three expressions. -/
def parsedByExpressions (input : String) : Except Fault Setting :=
  match settingExpression.whole? (trim input.toList) with
  | none => .error (.invalidSetting (.notASetting input))
  | some m =>
    let setting (items : List (List Char × List Char)) : Setting :=
      ⟨.ofList ((m.group? 2).getD []), m.group? 1 = some ['+'],
        .ofPairs (items.map fun i => (.ofList i.1, .ofList i.2))⟩
    match m.group? 3 with
    | none => .ok (setting [])
    | some inner =>
      if (paramsExpression.whole? inner).isSome then .ok (setting (foundItems inner))
      else .error (.invalidSetting (.malformedParameters input))

variable {cs t : List Char} {m : Match} {g : Groups}

/-! ### The setting as a whole

Of a match only the three groups are asked for.  The expression is anchored at both ends, so it has to read the whole
of the trimmed text, and there is one way to do so: `split?` finds it.
-/

section Whole

/-- The two signs are those that a setting, switched on or off, is written with. -/
theorem isSign_iff {c : Char} : isSign c = true ↔ ∃ enabled, c = signOf enabled := by
  simp [isSign, signOf, or_comm]

/-- The enclosure reads nothing, or a text without a line feed between the outermost parentheses; the third group
holds that text. -/
theorem reads_enclosureExpression :
    enclosureExpression.Reads t g ↔
      ∃ inner : Option (List Char), (∀ i ∈ inner, '\n' ∉ i) ∧ t = enclosure inner ∧
        g = (inner.map fun i => (3, i)).toList := by
  constructor
  · rintro (taken | ⟨rfl, rfl⟩)
    · obtain ⟨_, _, _, _, opens, rest, rfl, rfl⟩ := taken
      obtain ⟨_, _, _, _, ⟨_, held, rfl⟩, closes, rfl, rfl⟩ := rest
      obtain ⟨rfl, rfl⟩ := reads_char.1 opens
      obtain ⟨inside, rfl⟩ := reads_star_one.1 held
      obtain ⟨rfl, rfl⟩ := reads_char.1 closes
      exact ⟨some _, fun i hi => Option.mem_some.1 hi ▸ forall_isOther_iff.1 inside, rfl, rfl⟩
    · exact ⟨none, nofun, rfl, rfl⟩
  · rintro ⟨inner, absent, rfl, rfl⟩
    cases inner with
    | none => exact .inr ⟨rfl, rfl⟩
    | some i =>
        have opens := Reads.char '('
        have held : (star (.one (isOther '\n'))).Reads i [] :=
          reads_star_one.2 ⟨forall_isOther_iff.2 (absent i rfl), rfl⟩
        have closes := Reads.char ')'
        exact .inl (opens.seq (held.group.seq closes))

/-- What the groups of a setting read. -/
def captures (enabled : Bool) (name : List Char) (inner : Option (List Char)) : Groups :=
  (inner.map fun i => (3, i)).toList ++ [(2, name), (1, [signOf enabled])]

/-- Each group of a setting holds what its part of the expression read; the third one is unset if there is no
enclosure. -/
theorem group?_captures (cs name : List Char) (enabled : Bool) (inner : Option (List Char)) :
    (Match.mk cs [] (captures enabled name inner)).group? 1 = some [signOf enabled] ∧
      (Match.mk cs [] (captures enabled name inner)).group? 2 = some name ∧
      (Match.mk cs [] (captures enabled name inner)).group? 3 = inner := by
  cases inner with
  | none => exact ⟨rfl, rfl, rfl⟩
  | some i => exact ⟨rfl, rfl, rfl⟩

/-- **The first expression reads sign, name and enclosure.** -/
theorem reads_settingExpression :
    settingExpression.Reads t g ↔
      ∃ enabled name inner, split? t = some (enabled, name, inner) ∧ g = captures enabled name inner := by
  simp only [split?_eq_some_iff]
  constructor
  · rintro ⟨_, _, _, _, ⟨_, ⟨c, sign, rfl, rfl⟩, rfl⟩, rest, rfl, rfl⟩
    obtain ⟨name, _, _, _, ⟨_, named, rfl⟩, encloses, rfl, rfl⟩ := rest
    obtain ⟨enabled, rfl⟩ := isSign_iff.1 sign
    obtain ⟨ne, word, rfl⟩ := reads_plus_one.1 named
    obtain ⟨inner, absent, rfl, rfl⟩ := reads_enclosureExpression.1 encloses
    refine ⟨enabled, name, inner, ⟨rfl, ne, word, absent⟩, ?_⟩
    simp [captures]
  · rintro ⟨enabled, name, inner, ⟨rfl, ne, word, absent⟩, rfl⟩
    have sign : (Expression.one isSign).Reads [signOf enabled] [] :=
      ⟨_, isSign_iff.2 ⟨enabled, rfl⟩, rfl, rfl⟩
    have named : (plus (.one isWord)).Reads name [] := reads_plus_one.2 ⟨ne, word, rfl⟩
    have encloses := reads_enclosureExpression.2 ⟨inner, absent, rfl, rfl⟩
    have whole : settingExpression.Reads _ _ := sign.group.seq (named.group.seq encloses)
    simpa [captures] using whole

/-- The first expression matches the texts that `split?` splits, in one way each. -/
theorem whole?_settingExpression (cs : List Char) :
    settingExpression.whole? cs = (split? cs).map fun x => ⟨cs, [], captures x.1 x.2.1 x.2.2⟩ := by
  cases parts : split? cs with
  | none =>
      refine Option.not_isSome_iff_eq_none.1 fun found => ?_
      obtain ⟨g, reads⟩ := isSome_whole?_iff.1 found
      obtain ⟨enabled, name, inner, parts', -⟩ := reads_settingExpression.1 reads
      cases parts.symm.trans parts'
  | some x =>
      refine whole?_eq_of_forall (reads_settingExpression.2 ⟨_, _, _, parts, rfl⟩) fun g reads => ?_
      obtain ⟨enabled, name, inner, parts', rfl⟩ := reads_settingExpression.1 reads
      cases parts.symm.trans parts'
      rfl

end Whole

/-! ### The list between the parentheses

The second expression is asked only whether it matches, so it is enough that it can read the layouts of items.
-/

section List

/-- A round of the second expression reads the text of one valid item and no group. -/
theorem reads_itemExpression :
    itemExpression.Reads t g ↔ (∃ i : Item, i.Valid ∧ t = i.text) ∧ g = [] := by
  constructor
  · rintro ⟨key, _, _, _, keyed, rest, rfl, rfl⟩
    obtain ⟨_, _, _, _, opens, rest, rfl, rfl⟩ := rest
    obtain ⟨value, _, _, _, held, rest, rfl, rfl⟩ := rest
    obtain ⟨_, _, gap, _, closes, separated, rfl, rfl⟩ := rest
    obtain ⟨ne, word, rfl⟩ := reads_plus_one.1 keyed
    obtain ⟨rfl, rfl⟩ := reads_char.1 opens
    obtain ⟨inside, rfl⟩ := reads_star_one.1 held
    obtain ⟨rfl, rfl⟩ := reads_char.1 closes
    obtain ⟨separates, rfl⟩ := reads_star_one.1 separated
    exact ⟨⟨⟨key, value, gap⟩, ⟨ne, word, forall_isOther_iff.1 inside, separates⟩, rfl⟩, rfl⟩
  · rintro ⟨⟨⟨key, value, gap⟩, valid, rfl⟩, rfl⟩
    have keyed : (plus (.one isWord)).Reads key [] :=
      reads_plus_one.2 ⟨valid.key_ne_nil, valid.isWord_of_mem, rfl⟩
    have opens := Reads.char '['
    have held : (star (.one (isOther ']'))).Reads value [] :=
      reads_star_one.2 ⟨forall_isOther_iff.2 valid.not_mem_value, rfl⟩
    have closes := Reads.char ']'
    have separated : (star (.one isSeparator)).Reads gap [] :=
      reads_star_one.2 ⟨valid.isSeparator_of_mem, rfl⟩
    exact keyed.seq (opens.seq (held.seq (closes.seq separated)))

/-- An item has a text, since a bracket stands in it; so no round of the second expression is empty. -/
theorem Item.text_ne_nil (i : Item) : i.text ≠ [] := by
  simp [Item.text]

/-- **The second expression reads items.** -/
theorem reads_paramsExpression :
    paramsExpression.Reads t g ↔ (∃ p : Items, p.Valid ∧ t = p.text) ∧ g = [] := by
  have reads_items {t g} : (star itemExpression).Reads t g ↔
      (∃ items : List Item, (∀ i ∈ items, i.Valid) ∧ t = items.flatMap Item.text) ∧ g = [] :=
    reads_star_iff reads_itemExpression fun i _ => i.text_ne_nil
  constructor
  · rintro ⟨gap, _, _, _, separated, rounds, rfl, rfl⟩
    obtain ⟨separates, rfl⟩ := reads_star_one.1 separated
    obtain ⟨⟨items, valid, rfl⟩, rfl⟩ := reads_items.1 rounds
    exact ⟨⟨⟨gap, items⟩, ⟨separates, valid⟩, rfl⟩, rfl⟩
  · rintro ⟨⟨⟨gap, items⟩, valid, rfl⟩, rfl⟩
    have separated : (star (.one isSeparator)).Reads gap [] :=
      reads_star_one.2 ⟨valid.isSeparator_of_mem, rfl⟩
    have rounds := reads_items.2 ⟨⟨items, valid.valid_of_mem, rfl⟩, rfl⟩
    exact separated.seq rounds

/-- The second expression matches the texts from which items can be read. -/
theorem isSome_whole?_paramsExpression_iff :
    (paramsExpression.whole? cs).isSome ↔ (readItems .between cs).isSome := by
  rw [isSome_whole?_iff, Option.isSome_iff_exists]
  simp only [reads_paramsExpression, readItems_eq_some_iff]
  constructor
  · rintro ⟨g, ⟨p, valid, rfl⟩, -⟩
    exact ⟨p.pairs, p, valid, rfl, rfl⟩
  · rintro ⟨pairs, p, valid, rfl, rfl⟩
    exact ⟨[], ⟨p, valid, rfl⟩, rfl⟩

end List

/-! ### The items one by one

The third expression is searched for from where the last match ended.  The search passes over the separators in front,
since no separator is a character of a key, and stops at the first item.
-/

section Item

/-- The third expression reads a key and a value in brackets, and its two groups hold them. -/
theorem reads_paramExpression :
    paramExpression.Reads t g ↔
      ∃ key value, t = key ++ '[' :: (value ++ [']']) ∧ key ≠ [] ∧ (∀ c ∈ key, isWord c = true) ∧
        ']' ∉ value ∧ g = [(2, value), (1, key)] := by
  constructor
  · rintro ⟨key, _, _, _, ⟨_, keyed, rfl⟩, rest, rfl, rfl⟩
    obtain ⟨_, _, _, _, opens, rest, rfl, rfl⟩ := rest
    obtain ⟨value, _, _, _, ⟨_, held, rfl⟩, closes, rfl, rfl⟩ := rest
    obtain ⟨ne, word, rfl⟩ := reads_plus_one.1 keyed
    obtain ⟨rfl, rfl⟩ := reads_char.1 opens
    obtain ⟨inside, rfl⟩ := reads_star_one.1 held
    obtain ⟨rfl, rfl⟩ := reads_char.1 closes
    exact ⟨key, value, rfl, ne, word, forall_isOther_iff.1 inside, rfl⟩
  · rintro ⟨key, value, rfl, ne, word, absent, rfl⟩
    have keyed : (plus (.one isWord)).Reads key [] := reads_plus_one.2 ⟨ne, word, rfl⟩
    have opens := Reads.char '['
    have held : (star (.one (isOther ']'))).Reads value [] :=
      reads_star_one.2 ⟨forall_isOther_iff.2 absent, rfl⟩
    have closes := Reads.char ']'
    exact keyed.group.seq (opens.seq (held.group.seq closes))

/-- What the third expression reads at the front of a text is its first item. -/
theorem mem_readings_paramExpression :
    m ∈ paramExpression.readings cs ↔
      ∃ key value more, item? cs = some (key, value, more) ∧
        m = ⟨key ++ '[' :: (value ++ [']']), more, [(2, value), (1, key)]⟩ := by
  obtain ⟨t, rest, g⟩ := m
  simp only [mem_readings_iff, reads_paramExpression, item?_eq_some_iff, Match.mk.injEq]
  constructor
  · rintro ⟨rfl, key, value, rfl, ne, word, absent, rfl⟩
    exact ⟨key, value, rest, ⟨by simp, ne, word, absent⟩, rfl, rfl, rfl⟩
  · rintro ⟨key, value, more, ⟨rfl, ne, word, absent⟩, rfl, rfl, rfl⟩
    exact ⟨by simp, key, value, rfl, ne, word, absent, rfl⟩

/-- **The third expression goes past the gap and finds the first item.** -/
theorem find?_text {p : Items} (h : p.Valid) :
    paramExpression.find? p.text =
      match p.items with
      | [] => none
      | i :: items => some ⟨i.key ++ '[' :: (i.value ++ [']']), Items.text ⟨i.gap, items⟩,
          [(2, i.value), (1, i.key)]⟩ := by
  obtain ⟨gap, items⟩ := p
  induction gap with
  | nil =>
      cases items with
      | nil => rfl
      | cons i items =>
          refine find?_eq_of_forall_mem (mem_readings_paramExpression.2 ⟨_, _, _, h.item?_text, rfl⟩) ?_
          intro x hx
          obtain ⟨key, value, more, first, rfl⟩ := mem_readings_paramExpression.1 hx
          cases h.item?_text.symm.trans first
          rfl
  | cons c gap ih =>
      obtain ⟨separator, separators⟩ := List.forall_mem_cons.1 h.isSeparator_of_mem
      refine Eq.trans (find?_cons_of_readings_eq_nil ?_) (ih ⟨separators, h.valid_of_mem⟩)
      refine List.eq_nil_iff_forall_not_mem.2 fun x hx => ?_
      obtain ⟨key, value, more, first, -⟩ := mem_readings_paramExpression.1 hx
      obtain ⟨text, ne, word, -⟩ := item?_eq_some_iff.1 first
      cases key with
      | nil => exact ne rfl
      | cons k key =>
          obtain ⟨rfl, -⟩ := List.cons.inj text
          exact Bool.false_ne_true ((isWord_eq_false_of_isSeparator separator).symm.trans (word c List.mem_cons_self))

/-- One search for each item finds them all. -/
theorem findUpTo_text {p : Items} (h : p.Valid) {n : Nat} (bound : p.text.length < n) :
    (paramExpression.findUpTo n p.text).map (fun m => ((m.group? 1).getD [], (m.group? 2).getD [])) =
      p.pairs := by
  obtain ⟨gap, items⟩ := p
  induction items generalizing gap n with
  | nil =>
      cases n with
      | zero => omega
      | succ n =>
          rw [findUpTo, find?_text h]
          rfl
  | cons i items ih =>
      cases n with
      | zero => omega
      | succ n =>
          have shorter : (Items.text ⟨i.gap, items⟩).length < n := by
            simp only [Items.text, List.flatMap_cons, Item.text, List.length_append, List.length_cons] at bound ⊢
            omega
          have read : i.key ++ '[' :: (i.value ++ [']']) ≠ [] := by simp
          rw [findUpTo, find?_text h]
          simp only [if_neg read, List.map_cons, ih _ h.tail shorter]
          rfl

/-- All items of a layout are found, in order, with their keys and values. -/
theorem foundItems_text {p : Items} (h : p.Valid) : foundItems p.text = p.pairs :=
  findUpTo_text h (Nat.lt_succ_self _)

end Item

/-- **The three expressions read what the reader reads.** -/
theorem parse_eq_parsedByExpressions (input : String) : parse input = parsedByExpressions input := by
  rw [parse, parsedByExpressions, whole?_settingExpression]
  cases split? (trim input.toList) with
  | none => rfl
  | some x =>
      obtain ⟨enabled, name, inner⟩ := x
      have sign : decide (some [signOf enabled] = some ['+']) = enabled := by
        cases enabled
        · rfl
        · rfl
      simp only [Option.map_some, group?_captures, sign, Option.getD_some]
      cases inner with
      | none => rfl
      | some inner =>
          simp only [isSome_whole?_paramsExpression_iff, Option.getD_some]
          cases read : readItems .between inner with
          | none => rfl
          | some pairs =>
              obtain ⟨p, valid, rfl, rfl⟩ := readItems_eq_some_iff.1 read
              rw [foundItems_text valid]
              rfl

/-- What a setting owes to a layout. -/
structure Layout.Describes (l : Layout) (s : Setting) : Prop where
  name_eq : s.name = .ofList l.name
  enabled_eq : s.enabled = l.enabled
  /-- A key that occurs has its values in order, and no other key has any. -/
  lookup_eq : ∀ key, s.params.lookup key =
    if Params.valuesOf key l.pairs = [] then none else some (Params.valuesOf key l.pairs)

/-- The setting that a layout is read as has the layout's name, its sign, and for each key its values in order. -/
theorem Layout.describes_setting (l : Layout) : l.Describes l.setting :=
  ⟨rfl, rfl, Params.lookup_ofPairs l.pairs⟩

/-- **Exactly the texts that are laid out as a setting are settings.**  Trimmed, such a text has a single layout, and
the setting is the one it describes; any other text is a fault that quotes it.  All this is what the three
expressions say. -/
theorem parse_by_layout (input : String) :
    parse input = parsedByExpressions input ∧
      match parse input with
      | .ok s =>
        ∃ l : Layout, l.Valid ∧ l.text = trim input.toList ∧ l.Describes s ∧
          ∀ m : Layout, m.Valid → m.text = trim input.toList → m = l
      | .error fault =>
        (fault = .invalidSetting (.notASetting input) ∨ fault = .invalidSetting (.malformedParameters input)) ∧
          ¬∃ l : Layout, l.Valid ∧ l.text = trim input.toList := by
  refine ⟨parse_eq_parsedByExpressions input, ?_⟩
  cases parsed : parse input with
  | ok s =>
      obtain ⟨l, valid, text, rfl⟩ := parse_eq_ok_iff.1 parsed
      exact ⟨l, valid, text, l.describes_setting, fun m hm same => m.eq_of_text_eq hm valid (same.trans text.symm)⟩
  | error fault =>
      refine ⟨parse_eq_error parsed, fun ⟨l, valid, text⟩ => ?_⟩
      have accepted : parse input = .ok l.setting := parse_eq_ok_iff.2 ⟨l, valid, text, rfl⟩
      cases parsed.symm.trans accepted

end Setting
end LoopPlumbing
