/- # The last setting decides

Which features run, said without a search: a feature runs with the parameters of a setting if that setting switches it
on and no later one names the feature, and a feature that no setting names runs if it is on by default (`Runs`).  Names
are compared letter by letter, where a capital letter A to Z is as good as the small one (`SameName`).

A selection is made feature by feature (`activation?_eq_some_iff`), and only the last of the settings for a feature is
looked at.  So settings for different features may change places (`activation?_swap`), and a setting that a later one
overrides may be left out (`activation?_erase`).  Whether every setting names some feature is a matter of the names
alone, so neither makes a selection fail.
-/

import LoopPlumbing.Feature.Selection
import Mathlib.Data.List.Forall2

namespace LoopPlumbing

open List (Forall₂)

/-! ### Names

Names are compared after every capital letter from A to Z is replaced by the small one, and by nothing else: letters
beyond these are compared as they are.
-/

section Names

/-- Two characters are equal, or one is a capital letter and the other the small one. -/
def SameLetter (c d : Char) : Prop :=
  c = d ∨ ('A' ≤ c ∧ c ≤ 'Z' ∧ d.toNat = c.toNat + 32) ∨ ('A' ≤ d ∧ d ≤ 'Z' ∧ c.toNat = d.toNat + 32)

/-- Two names are equal letter by letter, capital or small. -/
def SameName (a b : String) : Prop := Forall₂ SameLetter a.toList b.toList

/-- The capital letters are those with the numbers 65 to 90. -/
theorem isCapital_iff {c : Char} : 'A' ≤ c ∧ c ≤ 'Z' ↔ 65 ≤ c.toNat ∧ c.toNat ≤ 90 := by
  rw [Char.le_def, Char.le_def, UInt32.le_iff_toNat_le, UInt32.le_iff_toNat_le]
  exact Iff.rfl

/-- A small letter has a number 32 above that of its capital, and other characters stay. -/
theorem toNat_toLower (c : Char) :
    c.toLower.toNat = if 'A' ≤ c ∧ c ≤ 'Z' then c.toNat + 32 else c.toNat := by
  by_cases capital : 'A' ≤ c ∧ c ≤ 'Z'
  · have within : c.val.toNat ≤ 90 := (isCapital_iff.1 capital).2
    have small : c.toLower.val = c.val + 32 := congrArg Char.val (dif_pos capital)
    have distance : (32 : UInt32).toNat = 32 := rfl
    rw [if_pos capital, Char.toNat, Char.toNat, small, UInt32.toNat_add, distance]
    omega
  · rw [if_neg capital]
    exact congrArg Char.toNat (dif_neg capital)

/-- Two characters become one when folded exactly if they are the same letter. -/
theorem toLower_eq_toLower_iff {c d : Char} : c.toLower = d.toLower ↔ SameLetter c d := by
  rw [← Char.toNat_inj, toNat_toLower, toNat_toLower, SameLetter, ← and_assoc, ← and_assoc, ← Char.toNat_inj]
  simp only [isCapital_iff]
  split <;> split <;> omega

/-- **Names that are the same when folded are equal letter by letter**, capital or small. -/
theorem folded_eq_folded_iff {a b : String} : folded a = folded b ↔ SameName a b := by
  rw [folded, folded, ← String.toList_inj, String.toList_map, String.toList_map, SameName,
    ← List.forall₂_eq_eq_eq, List.forall₂_map_left_iff, List.forall₂_map_right_iff]
  simp only [toLower_eq_toLower_iff]

/-- Being the same name is symmetric, for it is equality when folded. -/
theorem SameName.symm {a b : String} (h : SameName a b) : SameName b a :=
  folded_eq_folded_iff.1 (folded_eq_folded_iff.2 h).symm

/-- Being the same name is transitive, for it is equality when folded. -/
theorem SameName.trans {a b c : String} (h : SameName a b) (h' : SameName b c) : SameName a c :=
  folded_eq_folded_iff.1 ((folded_eq_folded_iff.2 h).trans (folded_eq_folded_iff.2 h'))

end Names

/-- The setting names the feature. -/
def Setting.Names (s : Setting) (f : Feature) : Prop := SameName f.name s.name

/-- With the settings, the feature runs with the parameters. -/
inductive Feature.Runs (settings : List Setting) (f : Feature) : Params → Prop where
  /-- The last setting that names the feature switches it on. -/
  | switchedOn {before after : List Setting} {s : Setting} (split : settings = before ++ s :: after)
      (names : s.Names f) (last : ∀ t ∈ after, ¬t.Names f) (on : s.enabled = true) : Runs settings f s.params
  /-- No setting names the feature, and it is on by default. -/
  | byDefault (unnamed : ∀ s ∈ settings, ¬s.Names f) (on : f.onByDefault = true) : Runs settings f .empty

/-- Of the factories, those whose features run are active, in the order given, each with the parameters of its
feature. -/
inductive Factory.Active {ε : Type} (settings : List Setting) :
    List (Factory ε) → List (Factory ε × Params) → Prop where
  | nil : Active settings [] []
  | runs {a : Factory ε} {rest : List (Factory ε)} {active : List (Factory ε × Params)} {p : Params}
      (h : a.feature.Runs settings p) (others : Active settings rest active) :
      Active settings (a :: rest) ((a, p) :: active)
  | rests {a : Factory ε} {rest : List (Factory ε)} {active : List (Factory ε × Params)}
      (h : ∀ p, ¬a.feature.Runs settings p) (others : Active settings rest active) :
      Active settings (a :: rest) active

namespace Selection

variable {ε : Type} {settings before after : List Setting} {s t : Setting} {f : Feature}

/-! ### The setting that decides

For one feature only the last setting that names it is looked at.
-/

section Deciding

/-- A setting names the feature that it is compared with. -/
theorem isNamed_iff : f.isNamed s.name = true ↔ s.Names f := by
  rw [Feature.isNamed, decide_eq_true_iff]
  exact folded_eq_folded_iff

/-- Two settings that name one feature have the same name. -/
theorem sameName_of_names (hs : s.Names f) (ht : t.Names f) : SameName s.name t.name := hs.symm.trans ht

/-- Whatever the first of two settings with one name names, the second names too. -/
theorem names_of_sameName (hs : s.Names f) (same : SameName s.name t.name) : t.Names f := hs.trans same

/-- **The setting that decides is the last that names the feature.** -/
theorem deciding?_eq_some_iff :
    deciding? settings f = some s ↔
      ∃ before after, settings = before ++ s :: after ∧ s.Names f ∧ ∀ t ∈ after, ¬t.Names f := by
  rw [deciding?, List.find?_eq_some_iff_append]
  simp only [isNamed_iff, Bool.not_eq_true', ← Bool.not_eq_true]
  constructor
  · rintro ⟨names, after, before, split, last⟩
    refine ⟨before.reverse, after.reverse, ?_, names, fun t ht => last t (List.mem_reverse.1 ht)⟩
    rw [← List.reverse_reverse settings, split, List.reverse_append, List.reverse_cons, List.append_assoc]
    rfl
  · rintro ⟨before, after, rfl, names, last⟩
    refine ⟨names, after.reverse, before.reverse, ?_, fun t ht => last t (List.mem_reverse.1 ht)⟩
    rw [List.reverse_append, List.reverse_cons, List.append_assoc]
    rfl

/-- No setting decides exactly if none names the feature. -/
theorem deciding?_eq_none_iff : deciding? settings f = none ↔ ∀ s ∈ settings, ¬s.Names f := by
  rw [deciding?, List.find?_eq_none]
  simp only [List.mem_reverse, isNamed_iff]

/-- **A feature is activated exactly if it runs**, with the parameters with which it runs. -/
theorem activation?_eq_some_iff {p : Params} : activation? settings f = some p ↔ f.Runs settings p := by
  constructor
  · intro h
    unfold activation? at h
    split at h
    · next none =>
      split at h
      · next on =>
        cases h
        exact .byDefault (deciding?_eq_none_iff.1 none) on
      · cases h
    · next s found =>
      obtain ⟨before, after, split, names, last⟩ := deciding?_eq_some_iff.1 found
      split at h
      · next on =>
        cases h
        exact .switchedOn split names last on
      · cases h
  · rintro (⟨split, names, last, on⟩ | ⟨unnamed, on⟩)
    · rw [activation?, deciding?_eq_some_iff.2 ⟨_, _, split, names, last⟩]
      exact if_pos on
    · rw [activation?, deciding?_eq_none_iff.2 unnamed]
      exact if_pos on

/-- A feature is not activated exactly if it runs with no parameters at all. -/
theorem activation?_eq_none_iff : activation? settings f = none ↔ ∀ p, ¬f.Runs settings p := by
  rw [Option.eq_none_iff_forall_ne_some]
  exact forall_congr' fun p => not_congr activation?_eq_some_iff

/-- Settings in front decide if those behind do not. -/
theorem deciding?_append (before after : List Setting) (f : Feature) :
    deciding? (before ++ after) f = (deciding? after f).or (deciding? before f) := by
  rw [deciding?, List.reverse_append, List.find?_append]
  rfl

/-- **Settings for different features may change places.** -/
theorem activation?_swap (different : ¬SameName s.name t.name) (before after : List Setting) (f : Feature) :
    activation? (before ++ s :: t :: after) f = activation? (before ++ t :: s :: after) f := by
  have pair : (deciding? [t] f).or (deciding? [s] f) = (deciding? [s] f).or (deciding? [t] f) := by
    by_cases hs : s.Names f
    · have ht : ∀ u ∈ [t], ¬u.Names f := fun u hu named =>
        different (sameName_of_names hs (List.mem_singleton.1 hu ▸ named))
      rw [deciding?_eq_none_iff.2 ht, Option.none_or, Option.or_none]
    · have none : ∀ u ∈ [s], ¬u.Names f := fun u hu => List.mem_singleton.1 hu ▸ hs
      rw [deciding?_eq_none_iff.2 none, Option.none_or, Option.or_none]
  have apart : ∀ s t : Setting, deciding? (before ++ s :: t :: after) f =
      ((deciding? after f).or ((deciding? [t] f).or (deciding? [s] f))).or (deciding? before f) := fun s t => by
    rw [← deciding?_append, ← deciding?_append, ← deciding?_append]
    rfl
  rw [activation?, activation?, apart, apart, pair]

/-- **A setting that a later one overrides may be left out.** -/
theorem activation?_erase (overridden : ∃ t ∈ after, SameName s.name t.name) (before : List Setting) (f : Feature) :
    activation? (before ++ s :: after) f = activation? (before ++ after) f := by
  have later : (deciding? after f).or (deciding? [s] f) = deciding? after f := by
    cases found : deciding? after f with
    | some _ => rfl
    | none =>
        obtain ⟨t, ht, same⟩ := overridden
        have unnamed : ¬s.Names f := fun hs => deciding?_eq_none_iff.1 found t ht (names_of_sameName hs same)
        exact deciding?_eq_none_iff.2 fun u hu => List.mem_singleton.1 hu ▸ unnamed
  have apart : before ++ s :: after = before ++ ([s] ++ after) := rfl
  rw [activation?, activation?, apart, deciding?_append, deciding?_append, deciding?_append, later]

end Deciding

/-! ### The selection

All settings are checked for names first.  If each names some feature, the factories are gone through one by one.
-/

section Selecting

variable {factories : List (Factory ε)} {active : List (Factory ε × Params)}

/-- The factories that are kept are those whose features run, each with the parameters that the feature runs with. -/
theorem activePairs_iff :
    factories.filterMap (fun a => (activation? settings a.feature).map fun p => (a, p)) = active ↔
      Factory.Active settings factories active := by
  constructor
  · rintro rfl
    induction factories with
    | nil => exact .nil
    | cons a rest ih =>
        cases h : activation? settings a.feature with
        | none =>
            rw [List.filterMap_cons_none (by rw [h]; rfl)]
            exact .rests (activation?_eq_none_iff.1 h) ih
        | some p =>
            rw [List.filterMap_cons_some (by rw [h]; rfl)]
            exact .runs (activation?_eq_some_iff.1 h) ih
  · intro h
    induction h with
    | nil => rfl
    | runs h _ ih =>
        rw [List.filterMap_cons_some (by rw [activation?_eq_some_iff.2 h]; rfl), ih]
    | rests h _ ih =>
        rw [List.filterMap_cons_none (by rw [activation?_eq_none_iff.2 h]; rfl), ih]

/-- Some factory provides the feature that the setting names. -/
def IsKnown (factories : List (Factory ε)) (s : Setting) : Prop := ∃ a ∈ factories, s.Names a.feature

/-- A setting that names the feature of some factory is known. -/
theorem isKnown_iff : (factories.any fun a => a.feature.isNamed s.name) = true ↔ IsKnown factories s := by
  rw [List.any_eq_true]
  simp only [isNamed_iff, IsKnown]

/-- The first setting that names no feature. -/
theorem find?_unknown_eq_some_iff :
    (settings.find? fun s => !factories.any fun a => a.feature.isNamed s.name) = some s ↔
      ∃ before after, settings = before ++ s :: after ∧ (∀ t ∈ before, IsKnown factories t) ∧
        ¬IsKnown factories s := by
  rw [List.find?_eq_some_iff_append]
  simp only [Bool.not_eq_true', ← Bool.not_eq_true, not_not, isKnown_iff]
  exact ⟨fun ⟨unknown, before, after, split, known⟩ => ⟨before, after, split, known, unknown⟩,
    fun ⟨before, after, split, known, unknown⟩ => ⟨unknown, before, after, split, known⟩⟩

/-- **A selection fails because of the first setting that names no feature.** -/
theorem ofSettings_eq_error_iff {fault : Fault} :
    ofSettings settings factories = .error fault ↔
      ∃ before s after, settings = before ++ s :: after ∧ (∀ t ∈ before, IsKnown factories t) ∧
        ¬IsKnown factories s ∧ fault = .invalidSetting (.unknownFeature s.name) := by
  rw [ofSettings]
  constructor
  · intro h
    split at h
    · next s found =>
      obtain ⟨before, after, split, known, unknown⟩ := find?_unknown_eq_some_iff.1 found
      exact ⟨before, s, after, split, known, unknown, (Except.error.inj h).symm⟩
    · cases h
  · rintro ⟨before, s, after, split, known, unknown, rfl⟩
    rw [find?_unknown_eq_some_iff.2 ⟨before, after, split, known, unknown⟩]

/-- **A selection succeeds exactly if every setting names some feature.** -/
theorem ofSettings_eq_ok_iff {selection : Selection ε} :
    ofSettings settings factories = .ok selection ↔
      (∀ s ∈ settings, IsKnown factories s) ∧ Factory.Active settings factories selection.active := by
  rw [← activePairs_iff, ofSettings]
  split
  · next s found =>
    obtain ⟨before, after, rfl, -, unknown⟩ := find?_unknown_eq_some_iff.1 found
    refine iff_of_false (by simp) fun h => unknown (h.1 s ?_)
    exact List.mem_append_right _ List.mem_cons_self
  · next none =>
    have known : ∀ s ∈ settings, IsKnown factories s := fun s hs => by
      have passed := List.find?_eq_none.1 none s hs
      rw [Bool.not_eq_true, Bool.not_eq_false'] at passed
      exact isKnown_iff.1 passed
    rw [and_iff_right known, Except.ok.injEq]
    exact ⟨fun h => h ▸ rfl, fun h => congrArg Selection.mk h⟩

/-- Settings that name the same features and activate every feature alike select alike. -/
theorem ofSettings_eq_ok_congr {settings' : List Setting}
    (known : (∀ s ∈ settings, IsKnown factories s) ↔ ∀ s ∈ settings', IsKnown factories s)
    (alike : activation? settings = activation? settings') (selection : Selection ε) :
    ofSettings settings factories = .ok selection ↔ ofSettings settings' factories = .ok selection := by
  rw [ofSettings_eq_ok_iff, ofSettings_eq_ok_iff, known, ← activePairs_iff, ← activePairs_iff, alike]

end Selecting

/-- **Of the settings for a feature the last one decides.**  For all settings and all factories: the selection fails
exactly if some setting names no feature, capital letters or small, and then it names the first such setting.
Otherwise the factories whose features run are active, in the order given, each with the parameters of the last setting
that names its feature, or with none if no setting names it.  Hence two settings with different names that stand side
by side may change places, and a setting may be left out if a later one has the same name: the selection succeeds as
before, with the same factories and parameters. -/
theorem last_setting_decides (settings : List Setting) (factories : List (Factory ε)) :
    (∀ fault, ofSettings settings factories = .error fault ↔
      ∃ before s after, settings = before ++ s :: after ∧ (∀ t ∈ before, IsKnown factories t) ∧
        ¬IsKnown factories s ∧ fault = .invalidSetting (.unknownFeature s.name) ∧
        fault.message = "Invalid feature setting: " ++ ("no feature named " ++ s.name)) ∧
    (∀ selection, ofSettings settings factories = .ok selection ↔
      (∀ s ∈ settings, IsKnown factories s) ∧ Factory.Active settings factories selection.active) ∧
    (∀ before s t after, settings = before ++ s :: t :: after → ¬SameName s.name t.name →
      ∀ selection, ofSettings settings factories = .ok selection ↔
        ofSettings (before ++ t :: s :: after) factories = .ok selection) ∧
    ∀ before s after, settings = before ++ s :: after → (∃ t ∈ after, SameName s.name t.name) →
      ∀ selection, ofSettings settings factories = .ok selection ↔
        ofSettings (before ++ after) factories = .ok selection := by
  refine ⟨fun fault => ofSettings_eq_error_iff.trans ?_, fun selection => ofSettings_eq_ok_iff, ?_, ?_⟩
  · constructor
    · rintro ⟨before, s, after, split, known, unknown, rfl⟩
      exact ⟨before, s, after, split, known, unknown, rfl, rfl⟩
    · rintro ⟨before, s, after, split, known, unknown, rfl, -⟩
      exact ⟨before, s, after, split, known, unknown, rfl⟩
  · rintro before s t after rfl different
    refine ofSettings_eq_ok_congr ?_ (funext (activation?_swap different before after))
    have same : (before ++ s :: t :: after).Perm (before ++ t :: s :: after) :=
      (List.Perm.swap t s after).append_left before
    exact forall_congr' fun u => imp_congr_left same.mem_iff
  · rintro before s after rfl overridden
    refine ofSettings_eq_ok_congr ⟨fun known u hu => ?_, fun known u hu => ?_⟩
      (funext (activation?_erase overridden before))
    · refine known u ((List.mem_append.1 hu).elim (List.mem_append_left _) fun h => ?_)
      exact List.mem_append_right _ (List.mem_cons_of_mem s h)
    · rcases List.mem_append.1 hu with hu | hu
      · exact known u (List.mem_append_left _ hu)
      · rcases List.mem_cons.1 hu with rfl | hu
        · obtain ⟨t, ht, same⟩ := overridden
          obtain ⟨a, ha, names⟩ := known t (List.mem_append_right _ ht)
          exact ⟨a, ha, names_of_sameName names same.symm⟩
        · exact known u (List.mem_append_right _ hu)

/-- A feature whose stage passes everything on. -/
def idling (name : String) (onByDefault : Bool) : Factory Event := ⟨⟨name, onByDefault, ""⟩, fun _ => pure (.ok .idle)⟩

/-- Two settings for one feature with other parameters, and two for another feature. -/
def contradictory : List Setting :=
  [⟨"b", true, .ofPairs [("k", "1")]⟩, ⟨"a", true, .empty⟩, ⟨"B", true, .ofPairs [("k", "2")]⟩, ⟨"A", false, .empty⟩]

/-- The features that they are about, and a third. -/
def contradicted : List (Factory Event) := [idling "A" true, idling "b" false, idling "c" true]

/-- The feature `A` is switched off in the end and `b` runs with the parameters that are given last; `c` runs by
default.  It makes no difference if the first two settings change places or the first is left out. -/
theorem selected_contradictory :
    ¬SameName "b" "a" ∧ SameName "b" "B" ∧ ∃ selection,
      selection.active = [(idling "b" false, .ofPairs [("k", "2")]), (idling "c" true, .empty)] ∧
      ofSettings contradictory contradicted = .ok selection ∧
      ofSettings (⟨"a", true, .empty⟩ :: ⟨"b", true, .ofPairs [("k", "1")]⟩ :: contradictory.drop 2) contradicted =
        .ok selection ∧
      ofSettings (contradictory.drop 1) contradicted = .ok selection := by
  have capitals : folded "A" = folded "a" ∧ folded "B" = folded "b" := by
    simp [← String.toList_inj, folded]
  have distinct : folded "b" ≠ folded "a" ∧ folded "c" ≠ folded "a" ∧ folded "c" ≠ folded "b" := by
    simp [← String.toList_inj, folded]
  have different : ¬SameName "b" "a" := fun h => distinct.1 (folded_eq_folded_iff.2 h)
  have same : SameName "b" "B" := folded_eq_folded_iff.1 capitals.2.symm
  have known : ∀ s ∈ contradictory, IsKnown contradicted s := by
    simp [contradictory, contradicted, idling, IsKnown, ← isNamed_iff, Feature.isNamed, capitals]
  have a : deciding? contradictory (idling "A" true).feature = some ⟨"A", false, .empty⟩ := by
    simp [deciding?, contradictory, idling, Feature.isNamed]
  have b : deciding? contradictory (idling "b" false).feature = some ⟨"B", true, .ofPairs [("k", "2")]⟩ := by
    simp [deciding?, contradictory, idling, Feature.isNamed, capitals, distinct]
  have c : deciding? contradictory (idling "c" true).feature = none := by
    simp [deciding?, contradictory, idling, Feature.isNamed, capitals, distinct]
  have active : Factory.Active contradictory contradicted
      [(idling "b" false, .ofPairs [("k", "2")]), (idling "c" true, .empty)] := by
    refine .rests (activation?_eq_none_iff.1 ?_) (.runs (activation?_eq_some_iff.1 ?_)
      (.runs (activation?_eq_some_iff.1 ?_) .nil))
    · rw [activation?, a]
      rfl
    · rw [activation?, b]
      rfl
    · rw [activation?, c]
      rfl
  have selected : ofSettings contradictory contradicted = .ok ⟨_⟩ := ofSettings_eq_ok_iff.2 ⟨known, active⟩
  obtain ⟨-, -, swapped, erased⟩ := last_setting_decides contradictory contradicted
  exact ⟨different, same, _, rfl, selected, (swapped [] _ _ _ rfl different _).1 selected,
    (erased [] _ _ rfl ⟨_, List.mem_cons_of_mem _ List.mem_cons_self, same⟩ _).1 selected⟩

end Selection
end LoopPlumbing
