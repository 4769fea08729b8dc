/- # The loops in a body

The skeleton of an idiom is two rows of instructions, through which the loop is entered and left, that agree on
what the names of the loop stand for (`Idiom.skeleton_iff`).  The plumbing stands within the two rows
(`Idiom.Skeleton.lt_length_of_mem_plumbingAt`), so each skeleton is recorded by some match, and an idiom records
the plumbing of its skeletons and nothing else (`mem_recordings_iff`).

The rows of the four idioms are lists of conditions on single instructions, with the names of the loop as
parameters, so what is shown of rows is shown of all idioms at once.  The idioms are gone through one by one only
where they are unrolled.
-/

import LoopPlumbing.Proofs.ForEach.Annotations

namespace LoopPlumbing
namespace ForEach

open Bytecode
open Sequence

/-- What the names of a loop stand for; a loop over an iterator does not count. -/
structure Sense where
  loopStart : Label
  loopEnd : Label
  counter : UInt16

namespace Idiom

/-! ### Two rows for each idiom -/

/-- What the loop is entered through. -/
def entry (a : Sense) : Idiom → List (Instruction → Prop)
  | iteratorTestAtBottom =>
    [GetsIterator, Does (.store .reference), GoesTo a.loopEnd, Places a.loopStart,
      Does (.load .reference), CallsIterator "next"]
  | iteratorTestAtTop =>
    [GetsIterator, Does (.store .reference), Places a.loopStart, Does (.load .reference),
      CallsIterator "hasNext", BranchesTo a.loopEnd, Does (.load .reference), CallsIterator "next"]
  | arrayTestAtBottom =>
    [Does .arrayLength, Does (.store .int), PushesZero, StoresInt a.counter, GoesTo a.loopEnd,
      Places a.loopStart]
  | arrayTestAtTop =>
    [Does .arrayLength, Does (.store .int), PushesZero, StoresInt a.counter, Places a.loopStart,
      Does (.load .int), Does (.load .int), BranchesTo a.loopEnd]

/-- What stands behind the loop's own code. -/
def exit (a : Sense) : Idiom → List (Instruction → Prop)
  | iteratorTestAtBottom =>
    [Places a.loopEnd, Does (.load .reference), CallsIterator "hasNext", BranchesTo a.loopStart]
  | iteratorTestAtTop => [GoesTo a.loopStart, Places a.loopEnd]
  | arrayTestAtBottom =>
    [Increments a.counter, Places a.loopEnd, Does (.load .int), Does (.load .int),
      BranchesTo a.loopStart]
  | arrayTestAtTop => [Increments a.counter, GoesTo a.loopStart]

variable {x : Idiom} {code : List Instruction} {i j k : ℕ}

/-- Every loop is entered through at least one instruction. -/
theorem entry_ne_nil (a : Sense) : x.entry a ≠ [] := by
  cases x <;> exact List.cons_ne_nil _ _

/-- Every loop is left through at least one instruction. -/
theorem exit_ne_nil (a : Sense) : x.exit a ≠ [] := by
  cases x <;> exact List.cons_ne_nil _ _

/-- **A skeleton is two rows that agree on the names.** -/
theorem skeleton_iff :
    x.Skeleton code i j ↔
      ∃ a, i + (x.entry a).length ≤ j ∧ Row code i (x.entry a) ∧ Row code j (x.exit a) := by
  cases x with
  | iteratorTestAtBottom | iteratorTestAtTop =>
      constructor
      · rintro ⟨apart, loopStart, loopEnd, entered, left⟩
        exact ⟨⟨loopStart, loopEnd, 0⟩, apart, entered, left⟩
      · rintro ⟨a, apart, entered, left⟩
        exact ⟨apart, a.loopStart, a.loopEnd, entered, left⟩
  | arrayTestAtBottom | arrayTestAtTop =>
      constructor
      · rintro ⟨apart, loopStart, loopEnd, counter, entered, left⟩
        exact ⟨⟨loopStart, loopEnd, counter⟩, apart, entered, left⟩
      · rintro ⟨a, apart, entered, left⟩
        exact ⟨apart, a.loopStart, a.loopEnd, a.counter, entered, left⟩

/-! ### Where the plumbing stands -/

/-- The plumbing stands within the two rows. -/
theorem within_of_mem_plumbingAt (a : Sense) (h : k ∈ x.plumbingAt i j) :
    (i ≤ k ∧ k < i + (x.entry a).length) ∨ (j ≤ k ∧ k < j + (x.exit a).length) := by
  cases x <;> simp only [plumbingAt, List.mem_cons, List.not_mem_nil, or_false] at h <;>
    simp only [entry, exit, List.length_cons, List.length_nil] <;> omega

/-- The plumbing of a loop further on stands further on. -/
theorem plumbingAt_add (x : Idiom) (d i j : ℕ) :
    x.plumbingAt (d + i) (d + j) = (x.plumbingAt i j).map (d + ·) := by
  cases x <;> simp [plumbingAt, Nat.add_assoc]

/-- The plumbing of a loop stands in the code. -/
theorem Skeleton.lt_length_of_mem_plumbingAt (h : x.Skeleton code i j) (hk : k ∈ x.plumbingAt i j) :
    k < code.length := by
  obtain ⟨a, -, entered, left⟩ := skeleton_iff.1 h
  rcases within_of_mem_plumbingAt a hk with ⟨hi, hk⟩ | ⟨hj, hk⟩
  · exact entered.lt_length_of_lt hk hi
  · exact left.lt_length_of_lt hk hj

/-- Every skeleton is recorded by some match. -/
theorem Skeleton.exists_records (h : x.Skeleton code i j) :
    ∃ recorded, Records code x (i, j) recorded := by
  have found : ∀ ks : List ℕ, (∀ k ∈ ks, k < code.length) →
      ∃ recorded : List Instruction, recorded.map some = ks.map (code[·]?) := by
    intro ks
    induction ks with
    | nil => exact fun _ => ⟨[], rfl⟩
    | cons k ks ih =>
        intro inside
        obtain ⟨recorded, hrecorded⟩ := ih fun k' hk' => inside k' (List.mem_cons_of_mem _ hk')
        have there := List.getElem?_eq_getElem (inside k List.mem_cons_self)
        exact ⟨_ :: recorded, by rw [List.map_cons, List.map_cons, hrecorded, there]⟩
  obtain ⟨recorded, hrecorded⟩ := found _ fun k => h.lt_length_of_mem_plumbingAt
  exact ⟨recorded, h, hrecorded⟩

/-- In the code, the instruction is plumbing of some loop that has been compiled to this idiom. -/
def HasPlumbing (x : Idiom) (code : List Instruction) (t : Instruction) : Prop :=
  ∃ i j, x.Skeleton code i j ∧ ∃ k ∈ x.plumbingAt i j, code[k]? = some t

/-- In code without annotations an idiom is found at its skeletons. -/
theorem enumerates_plain (x : Idiom) (plain : Plain Shape.annotation code) (debug : Bool) :
    Enumerates (Records code x)
      ((x.pattern.scan Shape.annotation code (Context.start.withDebug debug)).value.map (·.recorded)) := by
  cases x with
  | iteratorTestAtBottom => exact enumerates_iteratorTestAtBottom plain
  | iteratorTestAtTop => exact enumerates_iteratorTestAtTop plain
  | arrayTestAtBottom => exact enumerates_arrayTestAtBottom plain
  | arrayTestAtTop => exact enumerates_arrayTestAtTop plain

end Idiom

/-! ### What is recorded -/

/-- In code without annotations nothing is passed over. -/
theorem plain_withoutAnnotations (code : List Instruction) :
    Plain Shape.annotation (withoutAnnotations code) := by
  rw [← Idiom.kept_annotation]
  exact fun _ => isIgnored_of_mem_kept

/-- **An idiom records the plumbing of its skeletons and nothing else.** -/
theorem mem_recordings_iff {debug : Bool} {code : List Instruction} {x : Idiom} {t : Instruction} :
    t ∈ (recordings debug code x).value ↔ x.HasPlumbing (withoutAnnotations code) t := by
  have found := x.enumerates_plain (plain_withoutAnnotations code) debug
  have recorded_iff : ∀ {i j recorded}, Idiom.Records (withoutAnnotations code) x (i, j) recorded →
      (t ∈ recorded ↔ ∃ k ∈ x.plumbingAt i j, (withoutAnnotations code)[k]? = some t) := by
    rintro i j recorded ⟨-, same⟩
    rw [← List.mem_map_of_injective fun _ _ => Option.some.inj, same, List.mem_map]
  have joined : (recordings debug (withoutAnnotations code) x).value =
      ((x.pattern.scan Shape.annotation (withoutAnnotations code)
        (Context.start.withDebug debug)).value.map (·.recorded)).flatten := List.flatMap_def
  rw [← value_recordings_withoutAnnotations, joined, List.mem_flatten]
  simp only [found.mem_iff, Prod.exists]
  constructor
  · rintro ⟨recorded, ⟨i, j, records⟩, ht⟩
    exact ⟨i, j, records.1, (recorded_iff records).1 ht⟩
  · rintro ⟨i, j, skeleton, ht⟩
    obtain ⟨recorded, records⟩ := skeleton.exists_records
    exact ⟨recorded, ⟨i, j, records⟩, (recorded_iff records).2 ht⟩

end ForEach
end LoopPlumbing
