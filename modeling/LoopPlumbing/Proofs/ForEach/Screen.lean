/- # The screen hides no loop

A method is matched only if something in it asks an iterator for more or takes the length of an array
(`mightLoop_iff`).  Every skeleton has such an instruction in one of its two rows, whatever stands between them
and whatever its names stand for (`Idiom.Skeleton.exists_mark`), so a method that is screened out has no loop.
The plumbing is then what the idioms record, with the screen and without it.

The screen looks at one instruction at a time and at no names, so it lets through many methods without a loop.  What
matters is the other direction, and that it looks for the same instructions as the idioms do, line numbers and
frames left out or not.
-/

import LoopPlumbing.Proofs.ForEach.Loops

namespace LoopPlumbing
namespace ForEach

open Bytecode
open Sequence

/-- An instruction without which no idiom is found. -/
def MarksLoop (x : Instruction) : Prop := CallsIterator "hasNext" x ∨ Does .arrayLength x

/-- The mark is tested on one instruction at a time, in the starting context. -/
theorem loopMark_iff {x : Instruction} :
    (loopMark.test Context.start x).value.isSome = true ↔ MarksLoop x := by
  rw [loopMark, Predicate.value_test_or, Option.isSome_or, Bool.or_eq_true]
  refine or_congr ?_ ?_
  · simp [hasNext, Shape.callTo, calls_iff, CallsIterator]
  · simp [Shape.opcode, Does]

/-- What the screen looks for. -/
theorem mightLoop_iff {code : List Instruction} :
    mightLoop code = true ↔ ∃ x ∈ code, MarksLoop x := by
  rw [mightLoop, List.any_eq_true]
  exact exists_congr fun x => and_congr_right fun _ => loopMark_iff

/-! ### Loops bear the mark -/

/-- One of the two rows of a loop has the mark. -/
theorem Idiom.exists_mark_mem (x : Idiom) (a : Sense) :
    ∃ fits ∈ x.entry a ++ x.exit a, ∀ t, fits t → MarksLoop t := by
  cases x with
  | iteratorTestAtBottom | iteratorTestAtTop =>
      exact ⟨CallsIterator "hasNext", by simp [entry, exit], fun _ => .inl⟩
  | arrayTestAtBottom | arrayTestAtTop =>
      exact ⟨Does .arrayLength, by simp [entry], fun _ => .inr⟩

/-- **A loop has the mark that the screen looks for.** -/
theorem Idiom.Skeleton.exists_mark {x : Idiom} {code : List Instruction} {i j : ℕ}
    (h : x.Skeleton code i j) : ∃ t ∈ code, MarksLoop t := by
  obtain ⟨a, -, entered, left⟩ := skeleton_iff.1 h
  obtain ⟨fits, hfits, mark⟩ := x.exists_mark_mem a
  rcases List.mem_append.1 hfits with hfits | hfits
  · obtain ⟨t, ht, fit⟩ := entered.exists_mem hfits
    exact ⟨t, ht, mark t fit⟩
  · obtain ⟨t, ht, fit⟩ := left.exists_mem hfits
    exact ⟨t, ht, mark t fit⟩

/-! ### With the screen and without -/

/-- No idiom is left out of the four. -/
theorem Idiom.mem_all (x : Idiom) : x ∈ all := by
  cases x <;> simp [all]

/-- A method that is screened out has no loop. -/
theorem mightLoop_of_mem_recordings {debug : Bool} {code : List Instruction} {x : Idiom} {t : Instruction}
    (h : t ∈ (recordings debug code x).value) : mightLoop code = true := by
  obtain ⟨i, j, skeleton, -⟩ := mem_recordings_iff.1 h
  obtain ⟨t, ht, mark⟩ := skeleton.exists_mark
  exact mightLoop_iff.2 ⟨t, List.mem_of_mem_filter ht, mark⟩

/-- A handle is recorded if it is the handle of an instruction that some idiom records. -/
theorem mem_recordedHandles_iff {debug : Bool} {code : List Instruction} {h : Handle} :
    h ∈ (recordedHandles debug code).value ↔
      ∃ x : Idiom, ∃ t ∈ (recordings debug code x).value, t.handle = h := by
  rw [recordedHandles, Logged.value_map, HandleSet.mem_ofList, Logged.value_gather]
  simp only [List.mem_map, List.mem_flatMap]
  constructor
  · rintro ⟨t, ⟨x, -, ht⟩, rfl⟩
    exact ⟨x, t, ht, rfl⟩
  · rintro ⟨x, t, ht, rfl⟩
    exact ⟨t, ⟨x, x.mem_all, ht⟩, rfl⟩

/-- A handle is plumbing if some idiom records an instruction with it; the screen has no say. -/
theorem mem_freshPlumbing_iff {debug : Bool} {m : MethodBody} {h : Handle} :
    h ∈ freshPlumbing debug m ↔
      ∃ x : Idiom, ∃ t ∈ (recordings debug m.instructions x).value, t.handle = h := by
  rw [← mem_recordedHandles_iff, freshPlumbing, plumbingOf]
  split
  · rfl
  · next screened =>
      refine iff_of_false (HandleSet.not_mem_empty h) fun found => ?_
      obtain ⟨x, t, ht, -⟩ := mem_recordedHandles_iff.1 found
      exact screened (mightLoop_of_mem_recordings ht)

/-- A handle is plumbing if it is the handle of some plumbing of a loop in the code without annotations. -/
theorem mem_plumbingOf_iff {debug : Bool} {m : MethodBody} {h : Handle} :
    h ∈ (plumbingOf debug m).value ↔
      ∃ x : Idiom, ∃ t, x.HasPlumbing (withoutAnnotations m.instructions) t ∧ t.handle = h :=
  mem_freshPlumbing_iff.trans (by simp only [mem_recordings_iff])

/-- **The screen never hides a loop.**  The screen lets a body pass exactly if some instruction of it calls
`hasNext` of the iterators or takes the length of an array, and what does not pass has no plumbing.  Yet the
plumbing is the same as without the screen: the handles of all instructions that any match of any idiom records
in the body. -/
theorem plumbingOf_eq_unscreened (debug : Bool) (m : MethodBody) :
    (mightLoop m.instructions = true ↔
      ∃ t ∈ m.instructions, CallsIterator "hasNext" t ∨ Does .arrayLength t) ∧
    (mightLoop m.instructions = false → (plumbingOf debug m).value = .empty) ∧
    (plumbingOf debug m).value = (recordedHandles debug m.instructions).value ∧
    ∀ h, h ∈ (plumbingOf debug m).value ↔
      ∃ x : Idiom, ∃ d ∈ (x.matcher.contexts m.instructions (Context.start.withDebug debug)).value,
        ∃ t ∈ d.recorded, t.handle = h := by
  have screened : mightLoop m.instructions = false → freshPlumbing debug m = .empty := fun h => by
    rw [freshPlumbing_eq, h]
    rfl
  refine ⟨mightLoop_iff, screened, HandleSet.ext fun h => ?_, fun h => ?_⟩
  · exact mem_freshPlumbing_iff.trans mem_recordedHandles_iff.symm
  · refine mem_freshPlumbing_iff.trans (exists_congr fun x => ?_)
    rw [recordings, Logged.value_map]
    simp only [List.mem_flatMap]
    constructor
    · rintro ⟨t, ⟨d, hd, ht⟩, rfl⟩
      exact ⟨d, hd, t, ht, rfl⟩
    · rintro ⟨d, hd, t, ht, rfl⟩
      exact ⟨t, ⟨d, hd, ht⟩, rfl⟩

end ForEach
end LoopPlumbing
