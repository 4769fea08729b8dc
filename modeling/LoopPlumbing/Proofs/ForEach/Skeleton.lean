/- # The skeletons of the idioms

What an idiom is found at, said by instructions and positions: the loop is entered at `i`, its own code ends
at `j`, and around it stand certain jumps, labels, loads, stores and calls that agree on two labels and, for
an array, on the local that counts.  Line numbers and frames are left out first.

An idiom records the plumbing of its skeletons, once for each choice of `i` and `j`.  In code without
annotations the two words of the idiom are followed clue by clue, and the clues are the skeleton; that
annotations may be left out is `value_scan_kept`.
-/

import LoopPlumbing.Proofs.ForEach.ShapeClue
import LoopPlumbing.Proofs.ForEach.Vocabulary
import LoopPlumbing.Proofs.ForEach.Words
import LoopPlumbing.Proofs.Sequence.Transparency

namespace LoopPlumbing
namespace ForEach

open Bytecode
open Sequence

/-- The code without line numbers and frames. -/
def withoutAnnotations (code : List Instruction) : List Instruction :=
  code.filter fun x => x.code.opcode ≠ .lineNumber ∧ x.code.opcode ≠ .frame

namespace Idiom

/-! ### What stands where -/

/-- In the code, the loop that is entered at `i` and whose own code ends at `j` has been compiled to this
idiom. -/
def Skeleton (code : List Instruction) (i j : ℕ) : Idiom → Prop
  | iteratorTestAtBottom => i + 6 ≤ j ∧ ∃ loopStart loopEnd,
      Row code i [GetsIterator, Does (.store .reference), GoesTo loopEnd, Places loopStart,
        Does (.load .reference), CallsIterator "next"] ∧
      Row code j [Places loopEnd, Does (.load .reference), CallsIterator "hasNext",
        BranchesTo loopStart]
  | iteratorTestAtTop => i + 8 ≤ j ∧ ∃ loopStart loopEnd,
      Row code i [GetsIterator, Does (.store .reference), Places loopStart,
        Does (.load .reference), CallsIterator "hasNext", BranchesTo loopEnd,
        Does (.load .reference), CallsIterator "next"] ∧
      Row code j [GoesTo loopStart, Places loopEnd]
  | arrayTestAtBottom => i + 6 ≤ j ∧ ∃ loopStart loopEnd counter,
      Row code i [Does .arrayLength, Does (.store .int), PushesZero, StoresInt counter,
        GoesTo loopEnd, Places loopStart] ∧
      Row code j [Increments counter, Places loopEnd, Does (.load .int),
        Does (.load .int), BranchesTo loopStart]
  | arrayTestAtTop => i + 8 ≤ j ∧ ∃ loopStart loopEnd counter,
      Row code i [Does .arrayLength, Does (.store .int), PushesZero, StoresInt counter,
        Places loopStart, Does (.load .int), Does (.load .int), BranchesTo loopEnd] ∧
      Row code j [Increments counter, GoesTo loopStart]

/-- The positions of the plumbing of a loop that is entered at `i` and whose own code ends at `j`. -/
def plumbingAt (i j : ℕ) : Idiom → List ℕ
  | iteratorTestAtBottom => [i, i + 5, j + 2, j + 3]
  | iteratorTestAtTop => [i, i + 4, i + 5, i + 7]
  | arrayTestAtBottom => [i, i + 2, j, j + 4]
  | arrayTestAtTop => [i, i + 2, i + 7, j]

variable {code : List Instruction} {debug : Bool}

/-- What an idiom records at its skeletons, in code in which nothing is passed over. -/
def Records (code : List Instruction) (x : Idiom) (ij : ℕ × ℕ) (recorded : List Instruction) : Prop :=
  x.Skeleton code ij.1 ij.2 ∧ recorded.map some = (x.plumbingAt ij.1 ij.2).map (code[·]?)

/-! ### Found at the skeletons

For each idiom its shapes are gone through twice: as clues, to see which row of instructions they ask for, and as
positions, to see which of them are recorded.
-/

/-- A loop is entered within the code. -/
theorem Skeleton.lt_length {x : Idiom} {i j : ℕ} (h : x.Skeleton code i j) : i < code.length := by
  cases x with
  | iteratorTestAtBottom | iteratorTestAtTop =>
      obtain ⟨-, _, _, entered, -⟩ := h
      exact entered.lt_length (List.cons_ne_nil _ _)
  | arrayTestAtBottom | arrayTestAtTop =>
      obtain ⟨-, _, _, _, entered, -⟩ := h
      exact entered.lt_length (List.cons_ne_nil _ _)

/-- An idiom that records from each position the skeletons entered there records all skeletons in a scan. -/
theorem enumerates_of_ends {x : Idiom} (plain : Plain Shape.annotation code)
    (each : ∀ i, Enumerates (fun j => Records code x (i, j))
      ((x.pattern.ends Shape.annotation code ⟨i, [], [], debug⟩).value.map (·.recorded))) :
    Enumerates (Records code x)
      ((x.pattern.scan Shape.annotation code (Context.start.withDebug debug)).value.map (·.recorded)) :=
  enumerates_scan_of_ends plain each fun _ _ _ h => h.1.lt_length

/-- From one position, an iterator with the test at the bottom is found once for each end of its own code. -/
theorem enumerates_ends_iteratorTestAtBottom (plain : Plain Shape.annotation code) (i : ℕ) :
    Enumerates (fun j => Records code iteratorTestAtBottom (i, j))
      ((iteratorTestAtBottom.pattern.ends Shape.annotation code ⟨i, [], [], debug⟩).value.map
        (·.recorded)) := by
  let names : Label × Label → List (ℕ × Captured) := fun a =>
    [(loopStart.id, .label a.1), (loopEnd.id, .label a.2)]
  -- What a shape captures is a free choice of one name, the others stay as they are.
  have header : TellsAll (fun _ => []) (iteratorTestAtBottom.first :: iteratorTestAtBottom.header) _ names :=
    .cons (tells_plumbing tells_iteratorCall) <|
    .cons (tells_opcode _) <|
    .cons (tells_goto (fun _ => rfl) fun a l => ⟨(a.1, l), rfl, rfl⟩) <|
    .cons (tells_label (fun _ => rfl) fun a l => ⟨(l, a.2), rfl, rfl⟩) <|
    .cons (tells_opcode _) <|
    .cons (tells_plumbing (tells_callTo _)) .nil
  have footer : TellsAll names iteratorTestAtBottom.footer _ names :=
    .cons (tells_labelBound fun _ => rfl) <|
    .cons (tells_opcode _) <|
    .cons (tells_plumbing (tells_callTo _)) <|
    .cons (tells_plumbing (tells_branchBound fun _ => rfl)) .nil
  have found := enumerates_ends_words plain header footer (List.cons_ne_nil _ _) (⟨0⟩, ⟨0⟩) debug i
  refine found.congr fun j r => ?_
  rw [Prod.exists]
  exact Iff.rfl

/-- A scan finds the loops over an iterator with the test at the bottom, one by one. -/
theorem enumerates_iteratorTestAtBottom (plain : Plain Shape.annotation code) :
    Enumerates (Records code iteratorTestAtBottom)
      ((iteratorTestAtBottom.pattern.scan Shape.annotation code
        (Context.start.withDebug debug)).value.map (·.recorded)) :=
  enumerates_of_ends plain (enumerates_ends_iteratorTestAtBottom plain)

/-- From one position, an iterator with the test at the top is found once for each end of its own code. -/
theorem enumerates_ends_iteratorTestAtTop (plain : Plain Shape.annotation code) (i : ℕ) :
    Enumerates (fun j => Records code iteratorTestAtTop (i, j))
      ((iteratorTestAtTop.pattern.ends Shape.annotation code ⟨i, [], [], debug⟩).value.map
        (·.recorded)) := by
  let names : Label × Label → List (ℕ × Captured) := fun a =>
    [(loopEnd.id, .label a.2), (loopStart.id, .label a.1)]
  have header : TellsAll (fun _ => []) (iteratorTestAtTop.first :: iteratorTestAtTop.header) _ names :=
    .cons (tells_plumbing tells_iteratorCall) <|
    .cons (tells_opcode _) <|
    .cons (tells_label (fun _ => rfl) fun a l => ⟨(l, a.2), rfl, rfl⟩) <|
    .cons (tells_opcode _) <|
    .cons (tells_plumbing (tells_callTo _)) <|
    .cons (tells_plumbing (tells_branch (fun _ => rfl) fun a l => ⟨(a.1, l), rfl, rfl⟩)) <|
    .cons (tells_opcode _) <|
    .cons (tells_plumbing (tells_callTo _)) .nil
  have footer : TellsAll names iteratorTestAtTop.footer _ names :=
    .cons (tells_gotoBound fun _ => rfl) <|
    .cons (tells_labelBound fun _ => rfl) .nil
  have found := enumerates_ends_words plain header footer (List.cons_ne_nil _ _) (⟨0⟩, ⟨0⟩) debug i
  refine found.congr fun j r => ?_
  rw [Prod.exists]
  exact Iff.rfl

/-- A scan finds the loops over an iterator with the test at the top, one by one. -/
theorem enumerates_iteratorTestAtTop (plain : Plain Shape.annotation code) :
    Enumerates (Records code iteratorTestAtTop)
      ((iteratorTestAtTop.pattern.scan Shape.annotation code
        (Context.start.withDebug debug)).value.map (·.recorded)) :=
  enumerates_of_ends plain (enumerates_ends_iteratorTestAtTop plain)

/-- From one position, an array with the test at the bottom is found once for each end of its own code. -/
theorem enumerates_ends_arrayTestAtBottom (plain : Plain Shape.annotation code) (i : ℕ) :
    Enumerates (fun j => Records code arrayTestAtBottom (i, j))
      ((arrayTestAtBottom.pattern.ends Shape.annotation code ⟨i, [], [], debug⟩).value.map
        (·.recorded)) := by
  let names : Label × Label × UInt16 → List (ℕ × Captured) := fun a =>
    [(loopStart.id, .label a.1), (loopEnd.id, .label a.2.1), (counter.id, .var a.2.2)]
  have header : TellsAll (fun _ => []) (arrayTestAtBottom.first :: arrayTestAtBottom.header) _ names :=
    .cons (tells_plumbing (tells_opcode _)) <|
    .cons (tells_opcode _) <|
    .cons (tells_plumbing tells_zero) <|
    .cons (tells_storeInt (fun _ => rfl) fun a v => ⟨(a.1, a.2.1, v), rfl, rfl⟩) <|
    .cons (tells_goto (fun _ => rfl) fun a l => ⟨(a.1, l, a.2.2), rfl, rfl⟩) <|
    .cons (tells_label (fun _ => rfl) fun a l => ⟨(l, a.2), rfl, rfl⟩) .nil
  have footer : TellsAll names arrayTestAtBottom.footer _ names :=
    .cons (tells_plumbing (tells_incrementBound fun _ => rfl)) <|
    .cons (tells_labelBound fun _ => rfl) <|
    .cons (tells_opcode _) <|
    .cons (tells_opcode _) <|
    .cons (tells_plumbing (tells_branchBound fun _ => rfl)) .nil
  have found := enumerates_ends_words plain header footer (List.cons_ne_nil _ _) (⟨0⟩, ⟨0⟩, 0) debug i
  refine found.congr fun j r => ?_
  simp only [Prod.exists]
  exact Iff.rfl

/-- A scan finds the loops over an array with the test at the bottom, one by one. -/
theorem enumerates_arrayTestAtBottom (plain : Plain Shape.annotation code) :
    Enumerates (Records code arrayTestAtBottom)
      ((arrayTestAtBottom.pattern.scan Shape.annotation code
        (Context.start.withDebug debug)).value.map (·.recorded)) :=
  enumerates_of_ends plain (enumerates_ends_arrayTestAtBottom plain)

/-- From one position, an array with the test at the top is found once for each end of its own code. -/
theorem enumerates_ends_arrayTestAtTop (plain : Plain Shape.annotation code) (i : ℕ) :
    Enumerates (fun j => Records code arrayTestAtTop (i, j))
      ((arrayTestAtTop.pattern.ends Shape.annotation code ⟨i, [], [], debug⟩).value.map
        (·.recorded)) := by
  let names : Label × Label × UInt16 → List (ℕ × Captured) := fun a =>
    [(loopEnd.id, .label a.2.1), (loopStart.id, .label a.1), (counter.id, .var a.2.2)]
  have header : TellsAll (fun _ => []) (arrayTestAtTop.first :: arrayTestAtTop.header) _ names :=
    .cons (tells_plumbing (tells_opcode _)) <|
    .cons (tells_opcode _) <|
    .cons (tells_plumbing tells_zero) <|
    .cons (tells_storeInt (fun _ => rfl) fun a v => ⟨(a.1, a.2.1, v), rfl, rfl⟩) <|
    .cons (tells_label (fun _ => rfl) fun a l => ⟨(l, a.2), rfl, rfl⟩) <|
    .cons (tells_opcode _) <|
    .cons (tells_opcode _) <|
    .cons (tells_plumbing (tells_branch (fun _ => rfl) fun a l => ⟨(a.1, l, a.2.2), rfl, rfl⟩)) .nil
  have footer : TellsAll names arrayTestAtTop.footer _ names :=
    .cons (tells_plumbing (tells_incrementBound fun _ => rfl)) <|
    .cons (tells_gotoBound fun _ => rfl) .nil
  have found := enumerates_ends_words plain header footer (List.cons_ne_nil _ _) (⟨0⟩, ⟨0⟩, 0) debug i
  refine found.congr fun j r => ?_
  simp only [Prod.exists]
  exact Iff.rfl

/-- A scan finds the loops over an array with the test at the top, one by one. -/
theorem enumerates_arrayTestAtTop (plain : Plain Shape.annotation code) :
    Enumerates (Records code arrayTestAtTop)
      ((arrayTestAtTop.pattern.scan Shape.annotation code
        (Context.start.withDebug debug)).value.map (·.recorded)) :=
  enumerates_of_ends plain (enumerates_ends_arrayTestAtTop plain)

/-! ### Line numbers and frames -/

/-- The cursor has no say in any idiom. -/
theorem blind_pattern (x : Idiom) : x.pattern.Blind := by
  obtain ⟨g, hg⟩ := x.exists_grammar
  rw [← hg]
  exact g.blind

/-- What the engine keeps of a method is the code without annotations. -/
theorem kept_annotation (code : List Instruction) :
    kept Shape.annotation code = withoutAnnotations code := by
  refine List.filter_congr fun x _ => ?_
  have passed : (isIgnored Shape.annotation x).value = Shape.isAnnotation x := by
    simp only [isIgnored, Logged.value_map, Shape.annotation, value_runTest, Predicate.value_test_satisfying]
    cases Shape.isAnnotation x <;> rfl
  rw [passed, Shape.isAnnotation]
  cases x.code.opcode <;> simp

/-- **Each idiom matches exactly its skeletons.**  In any code, from a fresh context, traced or not, the
matches of an idiom are one for each choice of `i` and `j` at which its skeleton stands in the code without
annotations, and each records the plumbing there. -/
theorem recordings_enumerate_skeletons (x : Idiom) (code : List Instruction) (debug : Bool) :
    Enumerates (Records (withoutAnnotations code) x)
      ((x.matcher.contexts code (Context.start.withDebug debug)).value.map (·.recorded)) := by
  have plain : Plain Shape.annotation (withoutAnnotations code) := by
    rw [← kept_annotation]
    exact fun t => isIgnored_of_mem_kept
  obtain ⟨bound, checked⟩ := x.check_pattern
  have sunk : (x.pattern.scan Shape.annotation (withoutAnnotations code)
      (Context.start.withDebug debug)).value.map (·.recorded) =
        (x.matcher.contexts code (Context.start.withDebug debug)).value.map (·.recorded) := by
    rw [← kept_annotation, value_scan_kept x.blind_pattern (Pattern.roundsConsume_of_check checked),
      List.map_map]
    rfl
  rw [← sunk]
  cases x with
  | iteratorTestAtBottom => exact enumerates_iteratorTestAtBottom plain
  | iteratorTestAtTop => exact enumerates_iteratorTestAtTop plain
  | arrayTestAtBottom => exact enumerates_arrayTestAtBottom plain
  | arrayTestAtTop => exact enumerates_arrayTestAtTop plain

end Idiom

end ForEach
end LoopPlumbing
