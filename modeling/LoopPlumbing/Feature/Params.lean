/- # Parameters

The parameters of a feature map each key to the values given for it, in the order given.  Keys are kept in
ascending order, so two parameter lists are equal exactly if they map every key alike, and `alter` changes
the values of one key only (`lookup_alter`).

A key may be mapped to no values at all.  Such a key stands in the entries, and can be written and read
as JSON, but there is no text for it.
-/

import LoopPlumbing.Fault

namespace LoopPlumbing

/-- The values of each key, keys ascending. -/
structure Params where
  entries : List (String × List String)
  ordered : entries.Pairwise fun a b => compare a.1 b.1 = .lt

namespace Params

/-- Parameters are known by their entries. -/
@[ext] theorem ext {a b : Params} (h : a.entries = b.entries) : a = b := by
  cases a; cases b; cases h; rfl

/-- Parameters are equal if their entries are. -/
instance : DecidableEq Params := fun a b =>
  decidable_of_iff (a.entries = b.entries) ⟨ext, congrArg _⟩

/-- No parameters. -/
def empty : Params := ⟨[], .nil⟩

/-! ### Entries in order of their keys

One function changes the values of a key and puts the key in its place if it is new.  That the order is
kept is proved beside it, so that parameters can carry their order with them.
-/

/-- Replaces the values of a key by what `f` makes of them, in an ascending list of entries. -/
def alterEntries (key : String) (f : List String → List String) :
    List (String × List String) → List (String × List String)
  | [] => [(key, f [])]
  | entry :: rest =>
    match compare key entry.1 with
    | .lt => (key, f []) :: entry :: rest
    | .eq => (key, f entry.2) :: rest
    | .gt => entry :: alterEntries key f rest

/-- An entry was there before, or it is the one that was altered. -/
theorem eq_or_mem_of_mem_alterEntries {key : String} {f : List String → List String}
    {entries : List (String × List String)} {e : String × List String}
    (h : e ∈ alterEntries key f entries) : e.1 = key ∨ e ∈ entries := by
  induction entries with
  | nil => exact .inl (congrArg _ (List.mem_singleton.1 h))
  | cons entry rest ih =>
    unfold alterEntries at h
    split at h
    · exact (List.mem_cons.1 h).imp (congrArg _) id
    · exact (List.mem_cons.1 h).imp (congrArg _) (List.mem_cons_of_mem _)
    · rcases List.mem_cons.1 h with rfl | h
      · exact .inr List.mem_cons_self
      · exact (ih h).imp id (List.mem_cons_of_mem _)

/-- The keys stay in order. -/
theorem pairwise_alterEntries (key : String) (f : List String → List String)
    {entries : List (String × List String)}
    (h : entries.Pairwise fun a b => compare a.1 b.1 = .lt) :
    (alterEntries key f entries).Pairwise fun a b => compare a.1 b.1 = .lt := by
  induction entries with
  | nil => exact List.pairwise_singleton _ _
  | cons entry rest ih =>
    have ⟨below, tail⟩ := List.pairwise_cons.1 h
    unfold alterEntries
    split
    · next lt =>
      refine List.pairwise_cons.2 ⟨fun e he => ?_, h⟩
      rcases List.mem_cons.1 he with rfl | he
      · exact lt
      · exact Std.TransCmp.lt_trans lt (below e he)
    · next eq =>
      refine List.pairwise_cons.2 ⟨fun e he => ?_, tail⟩
      rw [Std.LawfulEqCmp.eq_of_compare eq]
      exact below e he
    · next gt =>
      refine List.pairwise_cons.2 ⟨fun e he => ?_, ih tail⟩
      rcases eq_or_mem_of_mem_alterEntries he with rfl | he
      · exact Std.OrientedCmp.gt_iff_lt.1 gt
      · exact below e he

/-- A key below another is another key. -/
theorem ne_of_lt {a b : String} (h : compare a b = .lt) : a ≠ b := by
  rintro rfl
  have same : compare a a = .eq := Std.ReflCmp.compare_self
  cases same.symm.trans h

/-- Looking up a key goes through the entries one by one. -/
theorem lookup_cons_eq (key : String) (entry : String × List String)
    (rest : List (String × List String)) :
    (entry :: rest).lookup key = if key = entry.1 then some entry.2 else rest.lookup key := by
  rw [List.lookup_cons]
  by_cases e : key = entry.1
  · simp [e]
  · rw [beq_false_of_ne e, if_neg e]

/-- Below the first key nothing is found. -/
theorem lookup_eq_none_of_lt {key : String} {entries : List (String × List String)}
    (h : ∀ e ∈ entries, compare key e.1 = .lt) : entries.lookup key = none :=
  List.lookup_eq_none_iff.2 fun e he => bne_iff_ne.2 (ne_of_lt (h e he))

/-- **Only the entry of the key is altered.** -/
theorem lookup_alterEntries (key : String) (f : List String → List String)
    {entries : List (String × List String)}
    (h : entries.Pairwise fun a b => compare a.1 b.1 = .lt) (other : String) :
    (alterEntries key f entries).lookup other =
      if other = key then some (f ((entries.lookup key).getD [])) else entries.lookup other := by
  induction entries with
  | nil => exact lookup_cons_eq other (key, f []) []
  | cons entry rest ih =>
    have ⟨below, tail⟩ := List.pairwise_cons.1 h
    unfold alterEntries
    split
    · next lt =>
      have absent : (entry :: rest).lookup key = none := lookup_eq_none_of_lt fun e he => by
        rcases List.mem_cons.1 he with rfl | he
        · exact lt
        · exact Std.TransCmp.lt_trans lt (below e he)
      rw [lookup_cons_eq, absent]
      rfl
    · next eq =>
      obtain rfl : key = entry.1 := Std.LawfulEqCmp.eq_of_compare eq
      rw [lookup_cons_eq, lookup_cons_eq, lookup_cons_eq, if_pos rfl]
      by_cases e : other = entry.1
      · simp [e]
      · simp [e]
    · next gt =>
      have ne : key ≠ entry.1 := (ne_of_lt (Std.OrientedCmp.gt_iff_lt.1 gt)).symm
      rw [lookup_cons_eq, ih tail, lookup_cons_eq, lookup_cons_eq, if_neg ne]
      by_cases e : other = key
      · simp [e, ne]
      · simp [e]

/-! ### Making parameters and reading them -/

/-- Replaces the values of a key by what `f` makes of them. -/
def alter (p : Params) (key : String) (f : List String → List String) : Params :=
  ⟨alterEntries key f p.entries, pairwise_alterEntries key f p.ordered⟩

/-- Adds a value behind those of its key. -/
def add (p : Params) (key value : String) : Params := p.alter key (· ++ [value])

/-- Sets all values of a key. -/
def put (p : Params) (key : String) (values : List String) : Params := p.alter key fun _ => values

/-- The parameters with the given values, those of one key in the order given. -/
def ofPairs (pairs : List (String × String)) : Params := pairs.foldl (fun p e => p.add e.1 e.2) empty

/-- The parameters with the given entries; of two entries with one key the later counts. -/
def ofEntries (entries : List (String × List String)) : Params :=
  entries.foldl (fun p e => p.put e.1 e.2) empty

/-- The values of a key, if it occurs. -/
def lookup (p : Params) (key : String) : Option (List String) := p.entries.lookup key

/-- **Only the values of the altered key change.** -/
theorem lookup_alter (p : Params) (key : String) (f : List String → List String) (other : String) :
    (p.alter key f).lookup other =
      if other = key then some (f ((p.lookup key).getD [])) else p.lookup other :=
  lookup_alterEntries key f p.ordered other

/-- Every value given for a key. -/
def getAll (p : Params) (key : String) : List String := (p.lookup key).getD []

/-- The first value given for a key. -/
def get? (p : Params) (key : String) : Option String := (p.getAll key).head?

/-- Whether there is no key at all. -/
def isEmpty (p : Params) : Bool := p.entries.isEmpty

/-- The truth value given for a key, in capitals or not; a fault if the first value is not one. -/
def truth? (p : Params) (key : String) : Except Fault (Option Bool) :=
  match p.get? key with
  | none => .ok none
  | some value =>
    if value.map Char.toLower = "true" then .ok (some true)
    else if value.map Char.toLower = "false" then .ok (some false)
    else .error (.invalidSetting (.notATruthValue key value))

end Params
end LoopPlumbing
