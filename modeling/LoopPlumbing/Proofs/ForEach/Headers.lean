/- # One header, one match

What an idiom lists when it is tried at one offset only.  What the loop is entered through stands there, so it tells
which idiom it is (`Idiom.announced_eq`) and what the names of the loop stand for, as far as its exit asks for them
(`Idiom.exit_eq_of_entry`).  What is left to choose is where the loop is left.

Anything may stand between, also further loops, calls of the iterator and increments, so every later position is a
candidate.  In three idioms the exit places the label at which the loop is left, and if no label is placed twice that
settles the position (`Idiom.exists_places_loopEnd`).  The fourth, an array with the test at the top, asks for that
label only where it is jumped to; it is found again at each place where its counter is incremented and the next
instruction goes back to its start.
-/

import LoopPlumbing.Proofs.ForEach.Regions

namespace LoopPlumbing

namespace ForEach

open Bytecode
open Sequence

/-- Where a position comes to lie when line numbers and frames are left out. -/
def plainPosition (code : List Instruction) (position : ℕ) : ℕ := (withoutAnnotations (code.take position)).length

/-! ### Places -/

section Places

variable {code : List Instruction}

/-- A label that is placed once is placed at one position. -/
theorem eq_of_places (once : (code.filterMap (·.code.label?)).Nodup) {l : Label} {i j : ℕ}
    (hi : ∃ t, code[i]? = some t ∧ Places l t) (hj : ∃ t, code[j]? = some t ∧ Places l t) : i = j := by
  have apart := List.pairwise_iff_getElem.1 (List.pairwise_filterMap.1 once)
  obtain ⟨s, hs, placed⟩ := hi
  obtain ⟨t, ht, placed'⟩ := hj
  obtain ⟨insideI, rfl⟩ := List.getElem?_eq_some_iff.1 hs
  obtain ⟨insideJ, rfl⟩ := List.getElem?_eq_some_iff.1 ht
  rw [← label?_eq_some_iff] at placed placed'
  rcases Nat.lt_trichotomy i j with h | h | h
  · exact absurd rfl (apart i j insideI insideJ h l placed l placed')
  · exact h
  · exact absurd rfl (apart j i insideJ insideI h l placed' l placed)

/-- Leaving out line numbers and frames does not place any label twice. -/
theorem nodup_placed_withoutAnnotations (once : (code.filterMap (·.code.label?)).Nodup) :
    ((withoutAnnotations code).filterMap (·.code.label?)).Nodup :=
  once.sublist (List.filter_sublist.filterMap _)

end Places

namespace Idiom

variable {x : Idiom} {code : List Instruction} {i j : ℕ} {a a' : Sense}

/-! ### Headers

The header settles the idiom and the names.
-/

section Header

/-- Whether the code goes on at a position with an unconditional jump. -/
def goesOn (code : List Instruction) (i : ℕ) : Bool := code[i]?.any (·.code.opcode = .goto)

/-- The idiom that begins at a position, if any does: an array is one whose length is taken, and a loop with the test
at the bottom begins with a jump there. -/
def announced (code : List Instruction) (i : ℕ) : Idiom :=
  if code[i]?.any (·.code.opcode = .arrayLength) then
    if goesOn code (i + 4) then arrayTestAtBottom else arrayTestAtTop
  else if goesOn code (i + 2) then iteratorTestAtBottom else iteratorTestAtTop

/-- **What a loop is entered through tells the idiom.** -/
theorem announced_eq (entered : Row code i (x.entry a)) : announced code i = x := by
  have jumps : ∀ {k l}, (∃ t, code[k]? = some t ∧ GoesTo l t) → goesOn code k = true := by
    rintro k l ⟨t, ht, h⟩
    simp [goesOn, ht, (show t.code = _ from h)]
  have stays : ∀ {k l}, (∃ t, code[k]? = some t ∧ Places l t) → goesOn code k = false := by
    rintro k l ⟨t, ht, h⟩
    simp [goesOn, ht, (show t.code = _ from h)]
  have calls : (∃ t, code[i]? = some t ∧ GetsIterator t) →
      code[i]?.any (·.code.opcode = .arrayLength) = false := by
    rintro ⟨t, ht, _, _, h, -⟩
    simp [ht, h]
  have measures : (∃ t, code[i]? = some t ∧ Does .arrayLength t) →
      code[i]?.any (·.code.opcode = .arrayLength) = true := by
    rintro ⟨t, ht, h⟩
    simp [ht, (show t.code.opcode = _ from h)]
  cases x with
  | iteratorTestAtBottom =>
      obtain ⟨first, -, third, -⟩ := entered
      rw [announced, calls first, jumps third]
      rfl
  | iteratorTestAtTop =>
      obtain ⟨first, -, third, -⟩ := entered
      rw [announced, calls first, stays third]
      rfl
  | arrayTestAtBottom =>
      obtain ⟨first, -, -, -, fifth, -⟩ := entered
      rw [announced, measures first, jumps fifth]
      rfl
  | arrayTestAtTop =>
      obtain ⟨first, -, -, -, fifth, -⟩ := entered
      rw [announced, measures first, stays fifth]
      rfl

/-- If an instruction tells the name under which it fits, it fits under one name only. -/
theorem eq_of_fits {ν : Type} (fits : ν → Instruction → Prop) {name? : Instruction → Option ν}
    (tells : ∀ {n t}, fits n t → name? t = some n) {n n' : ν} (h : ∃ t, fits n t ∧ fits n' t) : n = n' := by
  obtain ⟨t, h, h'⟩ := h
  exact Option.some.inj ((tells h).symm.trans (tells h'))

/-- **What a loop is entered through settles the names that its exit asks for.** -/
theorem exit_eq_of_entry (entered : Row code i (x.entry a)) (entered' : Row code i (x.entry a')) :
    x.exit a = x.exit a' := by
  have agree := entered.agree entered' (by cases x <;> rfl)
  have placed : ∀ {l l' : Label}, (∃ t, Places l t ∧ Places l' t) → l = l' :=
    eq_of_fits Places label?_eq_some_iff.2
  have goneTo : ∀ {l l' : Label}, (∃ t, GoesTo l t ∧ GoesTo l' t) → l = l' :=
    eq_of_fits GoesTo fun h => (goesTo_iff.2 h).2
  have branchedTo : ∀ {l l' : Label}, (∃ t, BranchesTo l t ∧ BranchesTo l' t) → l = l' :=
    eq_of_fits BranchesTo fun h => (branchesTo_iff.2 h).2
  have stored : ∀ {v v' : UInt16}, (∃ t, StoresInt v t ∧ StoresInt v' t) → v = v' :=
    eq_of_fits StoresInt fun h => h.2
  cases x with
  | iteratorTestAtBottom =>
      simp only [entry, List.forall₂_cons] at agree
      obtain ⟨-, -, loopEnd, loopStart, -⟩ := agree
      rw [exit, exit, goneTo loopEnd, placed loopStart]
  | iteratorTestAtTop =>
      simp only [entry, List.forall₂_cons] at agree
      obtain ⟨-, -, loopStart, -, -, loopEnd, -⟩ := agree
      rw [exit, exit, branchedTo loopEnd, placed loopStart]
  | arrayTestAtBottom =>
      simp only [entry, List.forall₂_cons] at agree
      obtain ⟨-, -, -, counter, loopEnd, loopStart, -⟩ := agree
      rw [exit, exit, stored counter, goneTo loopEnd, placed loopStart]
  | arrayTestAtTop =>
      simp only [entry, List.forall₂_cons] at agree
      obtain ⟨-, -, -, counter, loopStart, -⟩ := agree
      rw [exit, exit, stored counter, placed loopStart]

end Header

/-- The label at which a loop is left is placed at one step of the exit, unless it is the loop over an array with the
test at the top. -/
theorem exists_places_loopEnd (h : x ≠ arrayTestAtTop) :
    ∃ k, ∀ a j, Row code j (x.exit a) → ∃ t, code[j + k]? = some t ∧ Places a.loopEnd t := by
  cases x with
  | iteratorTestAtBottom => exact ⟨0, fun a j left => left.1⟩
  | iteratorTestAtTop | arrayTestAtBottom => exact ⟨1, fun a j left => left.2.1⟩
  | arrayTestAtTop => exact absurd rfl h

/-! ### What is found from one offset -/

/-- The contexts that an idiom lists if it is tried at one offset only. -/
def found (x : Idiom) (debug : Bool) (code : List Instruction) (offset : ℕ) :
    List (Context Instruction Captured) :=
  (x.pattern.ends Shape.annotation code ((Context.start.withDebug debug).moveTo offset)).value

/-- A scan lists what is found at the offsets at which it starts, with the cursor at the end. -/
theorem value_contexts_eq_flatMap_found (x : Idiom) (debug : Bool) (code : List Instruction) :
    (x.matcher.contexts code (Context.start.withDebug debug)).value =
      (starts Shape.annotation code).flatMap fun offset =>
        (x.found debug code offset).map (·.moveTo code.length) := value_scan _ _ _ _

/-- In code in which nothing is passed over, an idiom records from each position the skeletons that are entered
there. -/
theorem enumerates_ends (x : Idiom) (plain : Plain Shape.annotation code) (debug : Bool) (i : ℕ) :
    Enumerates (fun j => Records code x (i, j))
      ((x.pattern.ends Shape.annotation code ⟨i, [], [], debug⟩).value.map (·.recorded)) := by
  cases x with
  | iteratorTestAtBottom => exact enumerates_ends_iteratorTestAtBottom plain i
  | iteratorTestAtTop => exact enumerates_ends_iteratorTestAtTop plain i
  | arrayTestAtBottom => exact enumerates_ends_arrayTestAtBottom plain i
  | arrayTestAtTop => exact enumerates_ends_arrayTestAtTop plain i

/-- **At an offset an idiom records the skeletons that are entered there**, in the code without annotations, and where
the offset has moved in it. -/
theorem enumerates_found (x : Idiom) (debug : Bool) (code : List Instruction) (offset : ℕ) :
    Enumerates
      (fun j => Records (withoutAnnotations code) x (plainPosition code offset, j))
      ((x.found debug code offset).map (·.recorded)) := by
  obtain ⟨_, checked⟩ := x.check_pattern
  have consume := Pattern.roundsConsume_of_check checked
  have begins : ((Context.start.withDebug debug).moveTo offset).sink Shape.annotation code =
      (⟨plainPosition code offset, [], [], debug⟩ : Context Instruction Captured) := by
    rw [plainPosition, ← kept_annotation]
    rfl
  have sunk : (x.pattern.ends Shape.annotation (withoutAnnotations code)
      ⟨plainPosition code offset, [], [], debug⟩).value =
        (x.found debug code offset).map (·.sink Shape.annotation code) := by
    rw [← begins, ← kept_annotation]
    exact value_ends_kept x.blind_pattern consume _
  have same : (x.found debug code offset).map (·.recorded) =
      ((x.found debug code offset).map (·.sink Shape.annotation code)).map (·.recorded) := by
    rw [List.map_map]
    rfl
  rw [same, ← sunk]
  exact x.enumerates_ends (plain_withoutAnnotations code) debug _

/-- If anything is found at an offset, a loop is entered there. -/
theorem exists_entry_of_found {debug : Bool} {offset : ℕ} (h : x.found debug code offset ≠ []) :
    ∃ a, Row (withoutAnnotations code) (plainPosition code offset) (x.entry a) := by
  obtain ⟨d, hd⟩ := List.exists_mem_of_ne_nil _ h
  obtain ⟨j, skeleton, -⟩ := (x.enumerates_found debug code offset).mem_iff.1 (List.mem_map_of_mem hd)
  obtain ⟨a, -, entered, -⟩ := skeleton_iff.1 skeleton
  exact ⟨a, entered⟩

/-- **A loop is left at one position**, if no label is placed twice and it is not the loop over an array with the test
at the top. -/
theorem Skeleton.exit_unique (h : x ≠ arrayTestAtTop) (once : (code.filterMap (·.code.label?)).Nodup) {j' : ℕ}
    (hj : x.Skeleton code i j) (hj' : x.Skeleton code i j') : j = j' := by
  obtain ⟨a, -, entered, left⟩ := skeleton_iff.1 hj
  obtain ⟨a', -, entered', left'⟩ := skeleton_iff.1 hj'
  obtain ⟨k, placed⟩ := exists_places_loopEnd h
  rw [exit_eq_of_entry entered' entered] at left'
  exact Nat.add_right_cancel (eq_of_places once (placed a j left) (placed a j' left'))

/-- What is recorded is what stands at the positions of the plumbing. -/
theorem records_iff {recorded : List Instruction} :
    Records code x (i, j) recorded ↔
      x.Skeleton code i j ∧ recorded = (x.plumbingAt i j).filterMap (code[·]?) := by
  have unwrapped : ∀ {recorded : List Instruction} {ks : List ℕ},
      recorded.map some = ks.map (code[·]?) → recorded = ks.filterMap (code[·]?) := by
    intro recorded ks same
    have := congrArg (List.filterMap id) same
    rwa [List.filterMap_map, List.filterMap_map, Function.id_comp, Function.id_comp, List.filterMap_some] at this
  constructor
  · exact fun ⟨skeleton, same⟩ => ⟨skeleton, unwrapped same⟩
  · rintro ⟨skeleton, rfl⟩
    obtain ⟨recorded, records⟩ := skeleton.exists_records
    exact unwrapped records.2 ▸ records

end Idiom

/-- **One loop header yields one match.**  In any method, a scan tries every idiom at the offsets at which something
other than a line number or a frame stands, and from any offset at most one idiom finds anything.  If no label is
placed twice, then from any offset the two idioms for iterators and the one for arrays with the test at the bottom
find one match at most, whatever stands between header and footer.  The idiom for arrays with the test at the top finds
nothing from an offset at which its header does not stand; otherwise it finds one match for each position behind the
header at which, line numbers and frames left out, the counter of the header is incremented and the next instruction
goes to its start, and records the header's plumbing and that increment. -/
theorem matches_from_one_offset (debug : Bool) (code : List Instruction) :
    (∀ x : Idiom, (x.matcher.contexts code (Context.start.withDebug debug)).value =
      (starts Shape.annotation code).flatMap fun offset =>
        (x.found debug code offset).map (·.moveTo code.length)) ∧
    ∀ offset,
      (∀ x y : Idiom, x.found debug code offset ≠ [] → y.found debug code offset ≠ [] → x = y) ∧
      ((code.filterMap (·.code.label?)).Nodup →
        ∀ x : Idiom, x ≠ .arrayTestAtTop → (x.found debug code offset).length ≤ 1) ∧
      ((¬∃ a, Row (withoutAnnotations code) (plainPosition code offset) (Idiom.arrayTestAtTop.entry a)) →
        Idiom.arrayTestAtTop.found debug code offset = []) ∧
      ∀ a, Row (withoutAnnotations code) (plainPosition code offset) (Idiom.arrayTestAtTop.entry a) →
        Enumerates
          (fun j recorded =>
            (plainPosition code offset + 8 ≤ j ∧
              Row (withoutAnnotations code) j [Increments a.counter, GoesTo a.loopStart]) ∧
            recorded = (Idiom.arrayTestAtTop.plumbingAt (plainPosition code offset) j).filterMap
              ((withoutAnnotations code)[·]?))
          ((Idiom.arrayTestAtTop.found debug code offset).map (·.recorded)) := by
  refine ⟨fun x => x.value_contexts_eq_flatMap_found debug code, fun offset => ⟨fun x y hx hy => ?_,
    fun once x hx => ?_, fun none => ?_, fun a entered => ?_⟩⟩
  · obtain ⟨a, entered⟩ := Idiom.exists_entry_of_found hx
    obtain ⟨b, entered'⟩ := Idiom.exists_entry_of_found hy
    exact (Idiom.announced_eq entered).symm.trans (Idiom.announced_eq entered')
  · have single := (x.enumerates_found debug code offset).length_le_one fun j j' _ _ h h' =>
      h.1.exit_unique hx (nodup_placed_withoutAnnotations once) h'.1
    rwa [List.length_map] at single
  · by_contra found
    exact none (Idiom.exists_entry_of_found found)
  · refine (Idiom.arrayTestAtTop.enumerates_found debug code offset).congr fun j recorded => ?_
    rw [Idiom.records_iff, Idiom.skeleton_iff]
    refine and_congr_left fun _ => ?_
    constructor
    · rintro ⟨a', apart, entered', left⟩
      rw [Idiom.exit_eq_of_entry entered' entered] at left
      exact ⟨apart, left⟩
    · rintro ⟨apart, left⟩
      exact ⟨a, apart, entered, left⟩

/-- A loop over an array with the test at the top, in which the work for an element may end early. -/
def continuingLoop : List Code :=
  [⟨.arrayLength, .none⟩, ⟨.store .int, .var 3⟩, ⟨.constInt, .int 0⟩, ⟨.store .int, .var 1⟩, ⟨.label, .label ⟨0⟩⟩,
    ⟨.load .int, .var 1⟩, ⟨.load .int, .var 3⟩, ⟨.branch .intGe, .label ⟨1⟩⟩, ⟨.increment, .increment 1 1⟩,
    ⟨.lineNumber, .line 12⟩, ⟨.goto, .label ⟨0⟩⟩, ⟨.pop, .none⟩, ⟨.increment, .increment 1 1⟩, ⟨.goto, .label ⟨0⟩⟩,
    ⟨.label, .label ⟨1⟩⟩]

/-- The loop in which the work may end early, and another one with the test at the bottom. -/
def continuingThenCounting : List Instruction :=
  numbered 0 (continuingLoop ++ countingLoop ⟨2⟩ ⟨3⟩)

/-- The loop in which the work may end early is found with each of its two increments, and the other one once. -/
theorem found_continuingThenCounting :
    (continuingThenCounting.filterMap (·.code.label?)).Nodup ∧
      (Idiom.arrayTestAtBottom.found false continuingThenCounting 15).length = 1 ∧
      (Idiom.arrayTestAtBottom.found false continuingThenCounting 15).length ≤ 1 ∧
      Row (withoutAnnotations continuingThenCounting) (plainPosition continuingThenCounting 0)
        (Idiom.arrayTestAtTop.entry ⟨⟨0⟩, ⟨1⟩, 1⟩) ∧
      (Idiom.arrayTestAtTop.found false continuingThenCounting 0).map (·.recorded.map (·.handle.number)) =
        [[0, 2, 7, 8], [0, 2, 7, 12]] ∧
      Enumerates
        (fun j recorded =>
          (8 ≤ j ∧ Row (withoutAnnotations continuingThenCounting) j [Increments 1, GoesTo ⟨0⟩]) ∧
          recorded = (Idiom.arrayTestAtTop.plumbingAt 0 j).filterMap
            ((withoutAnnotations continuingThenCounting)[·]?))
        ((Idiom.arrayTestAtTop.found false continuingThenCounting 0).map (·.recorded)) := by
  have once : (continuingThenCounting.filterMap (·.code.label?)).Nodup := by decide
  have header : Row (withoutAnnotations continuingThenCounting) (plainPosition continuingThenCounting 0)
      (Idiom.arrayTestAtTop.entry ⟨⟨0⟩, ⟨1⟩, 1⟩) :=
    ⟨⟨_, rfl, rfl⟩, ⟨_, rfl, rfl⟩, ⟨_, rfl, rfl, rfl⟩, ⟨_, rfl, rfl, rfl⟩, ⟨_, rfl, rfl⟩, ⟨_, rfl, rfl⟩,
      ⟨_, rfl, rfl⟩, ⟨_, rfl, _, rfl⟩, trivial⟩
  obtain ⟨-, at_offset⟩ := matches_from_one_offset false continuingThenCounting
  obtain ⟨-, single, -, -⟩ := at_offset 15
  obtain ⟨-, -, -, each⟩ := at_offset 0
  exact ⟨once, by decide +kernel, single once .arrayTestAtBottom (by decide), header, by decide +kernel,
    each _ header⟩

end ForEach
end LoopPlumbing
