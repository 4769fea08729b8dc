/- # What the filter remembers

Without a memory, a candidate is resolved in its class and dropped if it changes plumbing that is computed
afresh (`sieved`).  The filter remembers the plumbing under the location of the method, which need not be the
location that it was looked up by, but two methods that can be found in one class have different locations
(`eq_of_location_eq`).  So a memory of methods that were found never answers for another method, and after a
look-up it is the memory of one method more, unless the method was there (`value_analyse`).

Sieving then gives the same as without memory, whatever methods of the class it remembers (`value_sieve`).
-/

import LoopPlumbing.ForEach.Filter
import Mathlib.Data.List.Dedup

namespace LoopPlumbing
namespace ForEach

open Bytecode

/-- The plumbing of a method, computed afresh. -/
def freshPlumbing (debug : Bool) (m : MethodBody) : HandleSet := (plumbingOf debug m).value

/-- Why a candidate can not be resolved in a class: its method is not there, or its offset lies outside. -/
def complaint? (c : ClassBody) (x : Candidate) : Option Fault :=
  match c.method? x.location with
  | none => some (.unknownMethod c.name.internal x.location.signature)
  | some m =>
    if x.offset < m.instructions.length then none
    else some (.instructionOutOfRange x.location.signature x.offset m.instructions.length)

/-- Whether the instruction that a candidate would change is plumbing of its method. -/
def changesPlumbing (debug : Bool) (c : ClassBody) (x : Candidate) : Bool :=
  (c.method? x.location).any fun m =>
    (m.instruction? x.offset).any fun i => i.handle ∈ freshPlumbing debug m

/-- The candidates that do not change plumbing, or the first complaint. -/
def sieved (debug : Bool) (c : ClassBody) (candidates : List Candidate) :
    Except Fault (List Candidate) :=
  match candidates.findSome? (complaint? c) with
  | some fault => .error fault
  | none => .ok (candidates.filter fun x => !changesPlumbing debug c x)

/-- The methods looked up for candidates, up to the first complaint. -/
def consulted (c : ClassBody) (candidates : List Candidate) : List MethodBody :=
  (candidates.takeWhile fun x => (complaint? c x).isNone).filterMap fun x => c.method? x.location

/-- The memory of methods that have been analysed. -/
def memory (debug : Bool) (methods : List MethodBody) : List (Location × HandleSet) :=
  methods.map fun m => (m.location, freshPlumbing debug m)

/-- Some location leads to the method in the class. -/
def Found (c : ClassBody) (m : MethodBody) : Prop := ∃ l, c.method? l = some m

/-! ### Resolving one candidate

The method is looked up first and the offset after that, so a candidate whose method is missing is complained of for
the method, whatever its offset.
-/

section Resolve

variable {c : ClassBody} {x : Candidate}

/-- A candidate that is complained of is not resolved, and the complaint is the fault. -/
theorem resolve_of_complaint {fault : Fault} (h : complaint? c x = some fault) :
    resolve c x = .error fault := by
  unfold complaint? at h
  unfold resolve findMethod
  cases hm : c.method? x.location with
  | none =>
      rw [hm] at h
      cases h
      rfl
  | some m =>
      rw [hm] at h
      simp only at h
      split at h
      · cases h
      · next hle =>
          cases h
          have outside : m.instruction? x.offset = none := List.getElem?_eq_none (by omega)
          simp only [bind, Except.bind, outside]

/-- A candidate that is not complained of is resolved to an instruction of its method. -/
theorem resolve_of_no_complaint (h : complaint? c x = none) :
    ∃ m i, c.method? x.location = some m ∧ m.instruction? x.offset = some i ∧
      resolve c x = .ok (m, i) := by
  unfold complaint? at h
  unfold resolve findMethod
  cases hm : c.method? x.location with
  | none =>
      rw [hm] at h
      cases h
  | some m =>
      rw [hm] at h
      simp only at h
      split at h
      · next hlt =>
          have inside : m.instruction? x.offset = some m.instructions[x.offset] :=
            List.getElem?_eq_getElem hlt
          exact ⟨m, _, rfl, inside, by simp only [bind, Except.bind, inside]⟩
      · cases h

/-- A method that is consulted was found at the location of some candidate. -/
theorem found_of_mem_consulted {candidates : List Candidate} {m : MethodBody}
    (h : m ∈ consulted c candidates) : Found c m := by
  obtain ⟨x, -, hx⟩ := List.mem_filterMap.1 h
  exact ⟨x.location, hx⟩

end Resolve

/-! ### The memory

The key of the memory is the location that a method has itself.  Looked up in one class, methods with one key are one
method, so no entry stands for another method.
-/

section Memory

variable {c : ClassBody} {m : MethodBody} {methods : List MethodBody}

/-- **Methods that can be found in a class are told apart by their locations**, although methods of one class
may share a location and a location may name another class. -/
theorem eq_of_location_eq {m' : MethodBody} (h : Found c m) (h' : Found c m')
    (same : m.location = m'.location) : m = m' := by
  have first : ∀ {l : Location} {m : MethodBody}, c.method? l = some m →
      c.methods.find? (·.isAt l) = some m ∧ m.location.method = l.method ∧
        m.location.descriptor = l.descriptor := by
    intro l m h
    unfold ClassBody.method? at h
    split at h
    · have at_l := List.find?_some h
      rw [MethodBody.isAt, Bool.and_eq_true, decide_eq_true_eq, decide_eq_true_eq] at at_l
      exact ⟨h, at_l⟩
    · cases h
  obtain ⟨l, h⟩ := h
  obtain ⟨l', h'⟩ := h'
  obtain ⟨find, name, descriptor⟩ := first h
  obtain ⟨find', name', descriptor'⟩ := first h'
  -- Both look-ups ask for the same name and descriptor, so they stop at the same method.
  have asks : (fun m : MethodBody => m.isAt l) = fun m => m.isAt l' := by
    funext m''
    rw [MethodBody.isAt, MethodBody.isAt, ← name, ← descriptor, ← name', ← descriptor', same]
  rw [asks, find'] at find
  exact (Option.some.inj find).symm

/-- The memory has an entry for a method exactly if the method is among those analysed, and the entry is its plumbing.
-/
theorem lookup_memory (debug : Bool) (hms : ∀ m' ∈ methods, Found c m') (hm : Found c m) :
    (memory debug methods).lookup m.location =
      if m ∈ methods then some (freshPlumbing debug m) else none := by
  induction methods with
  | nil => rfl
  | cons m' methods ih =>
      have rest := ih fun m'' h => hms m'' (List.mem_cons_of_mem _ h)
      rw [memory, List.map_cons, List.lookup_cons]
      by_cases e : m = m'
      · rw [if_pos (e ▸ List.mem_cons_self), e]
        simp
      · have differ : (m.location == m'.location) = false := by
          refine beq_eq_false_iff_ne.2 fun same => e ?_
          exact eq_of_location_eq hm (hms m' List.mem_cons_self) same
        rw [differ]
        simpa [e, memory] using rest

/-- **A look-up gives what a fresh computation gives**, and remembers it. -/
theorem value_analyse (debug : Bool) (hms : ∀ m' ∈ methods, Found c m') (hm : Found c m) :
    (Filter.analyse m ⟨some c, memory debug methods.dedup, debug⟩).value =
      (⟨some c, memory debug (m :: methods).dedup, debug⟩, freshPlumbing debug m) := by
  have hms' : ∀ m' ∈ methods.dedup, Found c m' := fun m' h => hms m' (List.mem_dedup.1 h)
  have known := lookup_memory debug hms' hm
  simp only [List.mem_dedup] at known
  unfold Filter.analyse
  by_cases h : m ∈ methods
  · rw [if_pos h] at known
    rw [List.dedup_cons_of_mem h, known]
    rfl
  · rw [if_neg h] at known
    rw [List.dedup_cons_of_notMem h, known]
    rfl

/-- Sieving one candidate more. -/
theorem sieved_cons (debug : Bool) (x : Candidate) (rest : List Candidate) :
    sieved debug c (x :: rest) =
      match complaint? c x with
      | some fault => .error fault
      | none =>
        if changesPlumbing debug c x then sieved debug c rest
        else (x :: ·) <$> sieved debug c rest := by
  unfold sieved
  rw [List.findSome?_cons]
  cases complaint? c x with
  | some fault => rfl
  | none =>
      cases rest.findSome? (complaint? c) with
      | some fault => cases changesPlumbing debug c x <;> rfl
      | none =>
          rw [List.filter_cons]
          cases changesPlumbing debug c x <;> rfl

/-- The first candidate is consulted unless it is complained of, and then nothing behind it is consulted either. -/
theorem consulted_cons (x : Candidate) (rest : List Candidate) :
    consulted c (x :: rest) =
      match complaint? c x with
      | some _ => []
      | none => (c.method? x.location).toList ++ consulted c rest := by
  unfold consulted
  rw [List.takeWhile_cons]
  cases complaint? c x with
  | some fault => rfl
  | none =>
      simp only [Option.isNone_none, if_true, List.filterMap_cons]
      cases c.method? x.location <;> rfl

/-- **Sieving gives the same with and without memory**, and remembers the methods that it consulted. -/
theorem value_sieve (debug : Bool) (candidates : List Candidate) (hms : ∀ m ∈ methods, Found c m) :
    (Filter.sieve c candidates ⟨some c, memory debug methods.dedup, debug⟩).value =
      (⟨some c, memory debug ((consulted c candidates).reverse ++ methods).dedup, debug⟩,
        sieved debug c candidates) := by
  induction candidates generalizing methods with
  | nil => rfl
  | cons x rest ih =>
      rw [Filter.sieve, sieved_cons, consulted_cons]
      cases h : complaint? c x with
      | some fault =>
          rw [resolve_of_complaint h]
          rfl
      | none =>
          obtain ⟨m, i, hm, hi, hr⟩ := resolve_of_no_complaint h
          have found : ∀ m' ∈ m :: methods, Found c m' := by
            intro m' hm'
            rcases List.mem_cons.1 hm' with rfl | hm'
            · exact ⟨_, hm⟩
            · exact hms m' hm'
          have falls : changesPlumbing debug c x = decide (i.handle ∈ freshPlumbing debug m) := by
            rw [changesPlumbing, hm, Option.any_some, hi, Option.any_some]
          have order : ((some m).toList ++ consulted c rest).reverse ++ methods =
              (consulted c rest).reverse ++ m :: methods := by simp
          rw [hr, hm, falls, order]
          simp only [Logged.value_bind, value_analyse debug hms ⟨_, hm⟩, ih found, Logged.value_pure]
          simp only [decide_eq_true_eq]

end Memory

end ForEach
end LoopPlumbing
