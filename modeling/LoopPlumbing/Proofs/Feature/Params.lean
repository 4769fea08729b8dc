/- # Parameters, key by key

Parameters are what they map each key to (`Params.eq_of_lookup`).  Made from a list of pairs, they map a key that
occurs to its values in order and no other key (`lookup_ofPairs`); and the pairs of parameters in which no key
stands without a value make the same parameters again (`ofPairs_pairs`).  Entry by entry, all parameters do
(`ofEntries_entries`).

Keys are kept in order, so no two entries have one key, and an entry is found by its key; what the order is does not
matter otherwise.
-/

import LoopPlumbing.Feature.Params
import Mathlib.Data.List.Basic
import Mathlib.Data.List.Sort

namespace LoopPlumbing
namespace Params

/-- The values that pairs give for a key, in order. -/
def valuesOf (key : String) (pairs : List (String × String)) : List String :=
  (pairs.filter (·.1 = key)).map (·.2)

/-- The values that two lists of pairs give for a key are those of the first and then those of the second. -/
theorem valuesOf_append (key : String) (l l' : List (String × String)) :
    valuesOf key (l ++ l') = valuesOf key l ++ valuesOf key l' := by
  rw [valuesOf, List.filter_append, List.map_append]
  rfl

/-- A key is given a value if the two are among the pairs. -/
theorem mem_valuesOf_iff {key value : String} {l : List (String × String)} :
    value ∈ valuesOf key l ↔ (key, value) ∈ l := by
  simp [valuesOf]

/-- The parameters pair by pair. -/
def pairs (p : Params) : List (String × String) := p.entries.flatMap fun e => e.2.map fun v => (e.1, v)

section Entries

-- Entries with ascending keys: the key of the first one occurs in no other.

variable {entries : List (String × List String)} {key : String}

/-- Keys go up, so an entry that is in the list at all is the one found for its key. -/
theorem lookup_eq_some_iff_mem (ordered : entries.Pairwise fun a b => compare a.1 b.1 = .lt)
    {values : List String} : entries.lookup key = some values ↔ (key, values) ∈ entries := by
  induction entries with
  | nil => simp
  | cons entry rest ih =>
      obtain ⟨below, tail⟩ := List.pairwise_cons.1 ordered
      rw [lookup_cons_eq, List.mem_cons, ← ih tail]
      by_cases e : key = entry.1
      · have absent : rest.lookup entry.1 = none := lookup_eq_none_of_lt below
        simp [e, absent, Prod.ext_iff, eq_comm]
      · simp [e, Prod.ext_iff]

/-- The values of a key are all in its entry. -/
theorem valuesOf_flatMap (ordered : entries.Pairwise fun a b => compare a.1 b.1 = .lt) :
    valuesOf key (entries.flatMap fun e => e.2.map fun v => (e.1, v)) =
      (entries.lookup key).getD [] := by
  induction entries with
  | nil => rfl
  | cons entry rest ih =>
      obtain ⟨below, tail⟩ := List.pairwise_cons.1 ordered
      have first : valuesOf key (entry.2.map fun v => (entry.1, v)) =
          if key = entry.1 then entry.2 else [] := by
        by_cases e : key = entry.1
        · simp [valuesOf, List.filter_map, Function.comp_def, e]
        · simp [valuesOf, List.filter_map, Function.comp_def, e, Ne.symm e]
      rw [List.flatMap_cons, valuesOf_append, first, ih tail, lookup_cons_eq]
      by_cases e : key = entry.1
      · have absent : rest.lookup entry.1 = none := lookup_eq_none_of_lt below
        simp [e, absent]
      · simp [e]

end Entries

/-! ### Made from pairs, or from entries

Two parameter lists are told apart by looking keys up, so both constructions are described by what they do to a
look-up.
-/

/-- A key is mapped to the values that stand in its entry. -/
theorem lookup_eq_some_iff {p : Params} {key : String} {values : List String} :
    p.lookup key = some values ↔ (key, values) ∈ p.entries := lookup_eq_some_iff_mem p.ordered

/-- **Parameters are what they map each key to.** -/
theorem eq_of_lookup {p q : Params} (h : ∀ key, p.lookup key = q.lookup key) : p = q := by
  have distinct : ∀ r : Params, r.entries.Nodup := fun r =>
    r.ordered.imp fun lt e => ne_of_lt lt (congrArg Prod.fst e)
  have same : p.entries.Perm q.entries := by
    refine (List.perm_ext_iff_of_nodup (distinct p) (distinct q)).2 fun ⟨key, values⟩ => ?_
    rw [← lookup_eq_some_iff, ← lookup_eq_some_iff, h]
  refine Params.ext (same.eq_of_pairwise (fun a b _ _ lt gt => ?_) p.ordered q.ordered)
  exact absurd (Std.TransCmp.lt_trans lt gt) fun lt' => ne_of_lt lt' rfl

/-- **Adding pairs one by one:** a key gets the values given for it, in order, behind those that it had. -/
theorem lookup_foldl_add (l : List (String × String)) (p : Params) (key : String) :
    (l.foldl (fun p e => p.add e.1 e.2) p).lookup key =
      if valuesOf key l = [] then p.lookup key
      else some ((p.lookup key).getD [] ++ valuesOf key l) := by
  induction l generalizing p with
  | nil => rfl
  | cons e l ih =>
      rw [List.foldl_cons, ih, add, lookup_alter]
      by_cases h : e.1 = key
      · have values : valuesOf key (e :: l) = e.2 :: valuesOf key l := by simp [valuesOf, h]
        rw [values, if_pos h.symm, h]
        split
        · next none => simp [none]
        · simp
      · have values : valuesOf key (e :: l) = valuesOf key l := by simp [valuesOf, h]
        rw [values, if_neg (Ne.symm h)]

/-- **A key that occurs is mapped to its values in order, and no other key is mapped.** -/
theorem lookup_ofPairs (l : List (String × String)) (key : String) :
    (ofPairs l).lookup key = if valuesOf key l = [] then none else some (valuesOf key l) :=
  lookup_foldl_add l empty key

/-- Parameters made from pairs have one entry for each key that is given, with all values given for it. -/
theorem mem_entries_ofPairs_iff {l : List (String × String)} {key : String} {values : List String} :
    (key, values) ∈ (ofPairs l).entries ↔ values ≠ [] ∧ values = valuesOf key l := by
  rw [← lookup_eq_some_iff, lookup_ofPairs]
  by_cases none : valuesOf key l = []
  · simp [none]
  · simp [none, eq_comm]
    rintro rfl
    exact none

/-- Parameters in which no key stands without a value are made from their pairs. -/
theorem ofPairs_pairs {p : Params} (h : ∀ e ∈ p.entries, e.2 ≠ []) : ofPairs p.pairs = p := by
  refine eq_of_lookup fun key => ?_
  have values : valuesOf key p.pairs = (p.lookup key).getD [] := valuesOf_flatMap p.ordered
  rw [lookup_ofPairs, values]
  cases found : p.lookup key with
  | none => rfl
  | some values => exact if_neg (h _ (lookup_eq_some_iff.1 found))

/-- Putting entries one by one: each key gets the values put for it, and no other key is touched. -/
theorem lookup_foldl_put {l : List (String × List String)}
    (ordered : l.Pairwise fun a b => compare a.1 b.1 = .lt) (p : Params) (key : String) :
    (l.foldl (fun p e => p.put e.1 e.2) p).lookup key = (l.lookup key).or (p.lookup key) := by
  induction l generalizing p with
  | nil => rfl
  | cons e l ih =>
      obtain ⟨below, tail⟩ := List.pairwise_cons.1 ordered
      rw [List.foldl_cons, ih tail, put, lookup_alter, lookup_cons_eq]
      by_cases same : key = e.1
      · have absent : l.lookup e.1 = none := lookup_eq_none_of_lt below
        rw [if_pos same, if_pos same, same, absent]
        rfl
      · rw [if_neg same, if_neg same]

/-- **Parameters are made from their entries.** -/
theorem ofEntries_entries (p : Params) : ofEntries p.entries = p := by
  refine eq_of_lookup fun key => ?_
  rw [ofEntries, lookup_foldl_put p.ordered]
  exact Option.or_none

end Params
end LoopPlumbing
