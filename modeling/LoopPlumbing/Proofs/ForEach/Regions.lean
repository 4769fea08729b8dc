/- # Regions of code

Two regions of code that share no label, with an instruction between them that no idiom asks for, do not
interfere: a loop lies in one of them or in the other, so the plumbing of the whole is that of the parts.

Neither row of a skeleton reaches over the instruction between the regions (`Row.append_cons_iff`), but the rows
of a loop that is entered in the first region could stand in different regions, since anything may stand between
them and both regions may count in the same local.  They do not, because in every idiom the loop starts at a
label that one row places and the other jumps to (`Idiom.exists_shared_label`).
-/

import LoopPlumbing.Bytecode.Assembler
import LoopPlumbing.Proofs.ForEach.Screen

namespace LoopPlumbing
namespace ForEach

open Bytecode
open Sequence

/-- The labels that an instruction places or jumps to. -/
def labelsOf (x : Instruction) : List Label := x.code.label?.toList ++ x.code.jumpTarget?.toList

/-- Whether an opcode does plain work: no idiom asks for an instruction with it. -/
def isPlainWork : Opcode → Bool
  | .nop | .constNull | .arithmetic _ _ | .arrayLoad _ | .arrayStore _ | .checkCast | .pop | .dup
  | .return _ | .throw => true
  | _ => false

/-! ### Labels -/

section Labels

variable {l : Label} {x : Instruction}

/-- A label that an instruction places is one of its labels. -/
theorem mem_labelsOf_of_places (h : Places l x) : l ∈ labelsOf x := by
  rw [labelsOf, label?_eq_some_iff.2 h]
  exact List.mem_append_left _ List.mem_cons_self

/-- A label that a jump goes to is one of its labels. -/
theorem mem_labelsOf_of_goesTo (h : GoesTo l x) : l ∈ labelsOf x := by
  rw [labelsOf, (goesTo_iff.2 h).2]
  exact List.mem_append_right _ List.mem_cons_self

/-- A label that a conditional jump goes to is one of its labels. -/
theorem mem_labelsOf_of_branchesTo (h : BranchesTo l x) : l ∈ labelsOf x := by
  rw [labelsOf, (branchesTo_iff.2 h).2]
  exact List.mem_append_right _ List.mem_cons_self

end Labels

namespace Idiom

variable {x : Idiom} {p s : List Instruction} {w : Instruction} {i j : ℕ}

/-- Plain work is in no row of any idiom. -/
theorem barred_of_isPlainWork (hw : isPlainWork w.code.opcode = true) (a : Sense) :
    (∀ fits ∈ x.entry a, ¬fits w) ∧ ∀ fits ∈ x.exit a, ¬fits w := by
  have does : ∀ op, isPlainWork op = false → ¬Does op w := by
    rintro op h rfl
    exact Bool.false_ne_true (h.symm.trans hw)
  have loads : ∀ kind, ¬Does (.load kind) w := fun _ => does _ rfl
  have stores : ∀ kind, ¬Does (.store kind) w := fun _ => does _ rfl
  have measures : ¬Does .arrayLength w := does _ rfl
  have goes : ∀ l, ¬GoesTo l w := fun _ h => does .goto rfl (congrArg Code.opcode h)
  have places : ∀ l, ¬Places l w := fun _ h => does .label rfl (congrArg Code.opcode h)
  have branches : ∀ l, ¬BranchesTo l w := fun _ ⟨c, h⟩ => does (.branch c) rfl (congrArg Code.opcode h)
  have gets : ¬GetsIterator w := fun ⟨d, _, h, _⟩ => does (.invoke d) rfl (congrArg Code.opcode h)
  have calls : ∀ name, ¬CallsIterator name w := fun _ ⟨d, _, h, _⟩ =>
    does (.invoke d) rfl (congrArg Code.opcode h)
  have storesInt : ∀ index, ¬StoresInt index w := fun _ h => stores _ h.1
  have increments : ∀ index, ¬Increments index w := fun _ h => does .increment rfl h.1
  have pushes : ¬PushesZero w := fun h => does .constInt rfl h.1
  cases x <;>
    simp [entry, exit, loads, stores, measures, goes, places, branches, gets, calls, storesInt, increments,
      pushes]

/-- Both rows of a loop mention the label at which it starts. -/
theorem exists_shared_label (x : Idiom) (a : Sense) :
    (∃ fits ∈ x.entry a, ∀ t, fits t → a.loopStart ∈ labelsOf t) ∧
      ∃ fits ∈ x.exit a, ∀ t, fits t → a.loopStart ∈ labelsOf t := by
  refine ⟨⟨Places a.loopStart, ?_, fun _ => mem_labelsOf_of_places⟩, ?_⟩
  · cases x <;> simp [entry]
  · cases x with
    | iteratorTestAtBottom | arrayTestAtBottom =>
        exact ⟨BranchesTo a.loopStart, by simp [exit], fun _ => mem_labelsOf_of_branchesTo⟩
    | iteratorTestAtTop | arrayTestAtTop =>
        exact ⟨GoesTo a.loopStart, by simp [exit], fun _ => mem_labelsOf_of_goesTo⟩

/-- The two rows of a loop do not stand in regions that share no label. -/
theorem not_row_of_apart (apart : ∀ l ∈ p.flatMap labelsOf, l ∉ s.flatMap labelsOf) {a : Sense}
    (entered : Row p i (x.entry a)) : ¬Row s j (x.exit a) := by
  intro left
  obtain ⟨⟨f, hf, mentions⟩, g, hg, mentions'⟩ := x.exists_shared_label a
  obtain ⟨t, ht, fits⟩ := entered.exists_mem hf
  obtain ⟨t', ht', fits'⟩ := left.exists_mem hg
  exact apart a.loopStart (List.mem_flatMap.2 ⟨t, ht, mentions t fits⟩)
    (List.mem_flatMap.2 ⟨t', ht', mentions' t' fits'⟩)

/-- **A loop lies in one region or in the other.** -/
theorem skeleton_append_cons_iff (apart : ∀ l ∈ p.flatMap labelsOf, l ∉ s.flatMap labelsOf)
    (hw : isPlainWork w.code.opcode = true) :
    x.Skeleton (p ++ w :: s) i j ↔
      x.Skeleton p i j ∨
        ∃ k l, i = p.length + 1 + k ∧ j = p.length + 1 + l ∧ x.Skeleton s k l := by
  have entry_iff : ∀ {a i}, Row (p ++ w :: s) i (x.entry a) ↔
      Row p i (x.entry a) ∨ ∃ k, i = p.length + 1 + k ∧ Row s k (x.entry a) := fun {a _} =>
    Row.append_cons_iff (barred_of_isPlainWork hw a).1 (entry_ne_nil a)
  have exit_iff : ∀ {a j}, Row (p ++ w :: s) j (x.exit a) ↔
      Row p j (x.exit a) ∨ ∃ l, j = p.length + 1 + l ∧ Row s l (x.exit a) := fun {a _} =>
    Row.append_cons_iff (barred_of_isPlainWork hw a).2 (exit_ne_nil a)
  simp only [skeleton_iff, entry_iff, exit_iff]
  constructor
  · rintro ⟨a, order, entered | ⟨k, rfl, entered⟩, left | ⟨l, rfl, left⟩⟩
    · exact .inl ⟨a, order, entered, left⟩
    · exact absurd left (not_row_of_apart apart entered)
    · have inside := left.lt_length (exit_ne_nil a)
      omega
    · exact .inr ⟨k, l, rfl, rfl, a, by omega, entered, left⟩
  · rintro (⟨a, order, entered, left⟩ | ⟨k, l, rfl, rfl, a, order, entered, left⟩)
    · exact ⟨a, order, .inl entered, .inl left⟩
    · exact ⟨a, by omega, .inr ⟨k, rfl, entered⟩, .inr ⟨l, rfl, left⟩⟩

/-- What is plumbing in two regions is plumbing in one of them. -/
theorem hasPlumbing_append_cons_iff (apart : ∀ l ∈ p.flatMap labelsOf, l ∉ s.flatMap labelsOf)
    (hw : isPlainWork w.code.opcode = true) {t : Instruction} :
    x.HasPlumbing (p ++ w :: s) t ↔ x.HasPlumbing p t ∨ x.HasPlumbing s t := by
  have before : ∀ {k}, k < p.length → (p ++ w :: s)[k]? = p[k]? := List.getElem?_append_left
  have behind : ∀ k, (p ++ w :: s)[p.length + 1 + k]? = s[k]? := fun k => by
    rw [List.getElem?_append_right (by omega), Nat.add_assoc, Nat.add_sub_cancel_left, Nat.add_comm 1,
      List.getElem?_cons_succ]
  constructor
  · rintro ⟨i, j, skeleton, k, hk, ht⟩
    rcases (skeleton_append_cons_iff apart hw).1 skeleton with inFirst | ⟨i, j, rfl, rfl, inSecond⟩
    · rw [before (inFirst.lt_length_of_mem_plumbingAt hk)] at ht
      exact .inl ⟨i, j, inFirst, k, hk, ht⟩
    · rw [plumbingAt_add, List.mem_map] at hk
      obtain ⟨k, hk, rfl⟩ := hk
      rw [behind] at ht
      exact .inr ⟨i, j, inSecond, k, hk, ht⟩
  · rintro (⟨i, j, skeleton, k, hk, ht⟩ | ⟨i, j, skeleton, k, hk, ht⟩)
    · refine ⟨i, j, (skeleton_append_cons_iff apart hw).2 (.inl skeleton), k, hk, ?_⟩
      rw [before (skeleton.lt_length_of_mem_plumbingAt hk), ht]
    · refine ⟨_, _, (skeleton_append_cons_iff apart hw).2 (.inr ⟨i, j, rfl, rfl, skeleton⟩),
        p.length + 1 + k, ?_, by rw [behind, ht]⟩
      rw [plumbingAt_add]
      exact List.mem_map_of_mem hk

end Idiom

/-! ### Code without annotations -/

section Code

variable {p s : List Instruction} {w : Instruction}

/-- Plain work is no annotation, so leaving annotations out does it on either side. -/
theorem withoutAnnotations_append_cons (hw : isPlainWork w.code.opcode = true) :
    withoutAnnotations (p ++ w :: s) = withoutAnnotations p ++ w :: withoutAnnotations s := by
  have stays : w.code.opcode ≠ .lineNumber ∧ w.code.opcode ≠ .frame := by
    constructor <;> intro h <;> simp [isPlainWork, h] at hw
  rw [withoutAnnotations, List.filter_append, List.filter_cons_of_pos (by simpa using stays)]
  rfl

/-- Code without annotations has no other labels. -/
theorem mem_labels_of_withoutAnnotations {l : Label} (h : l ∈ (withoutAnnotations p).flatMap labelsOf) :
    l ∈ p.flatMap labelsOf := by
  obtain ⟨x, hx, hl⟩ := List.mem_flatMap.1 h
  exact List.mem_flatMap.2 ⟨x, List.mem_of_mem_filter hx, hl⟩

end Code

/-- **Separate regions of code do not interfere.**  Let no label be placed or jumped to in both of two regions,
and let an instruction that does plain work stand between them.  Then the plumbing of the whole is that of the
first region and that of the second, whatever locals they use and whatever loops and parts of loops they
hold. -/
theorem mem_plumbingOf_append_cons_iff {p s : List Instruction} {w : Instruction}
    (apart : ∀ l ∈ p.flatMap labelsOf, l ∉ s.flatMap labelsOf) (hw : isPlainWork w.code.opcode = true)
    (debug : Bool) (whole first second : Location) (h : Handle) :
    h ∈ (plumbingOf debug ⟨whole, p ++ [w] ++ s⟩).value ↔
      h ∈ (plumbingOf debug ⟨first, p⟩).value ∨ h ∈ (plumbingOf debug ⟨second, s⟩).value := by
  have apart' : ∀ l ∈ (withoutAnnotations p).flatMap labelsOf,
      l ∉ (withoutAnnotations s).flatMap labelsOf := fun l hl hl' =>
    apart l (mem_labels_of_withoutAnnotations hl) (mem_labels_of_withoutAnnotations hl')
  have plumbing_iff : ∀ {l code}, h ∈ (plumbingOf debug ⟨l, code⟩).value ↔
      ∃ x : Idiom, ∃ t, x.HasPlumbing (withoutAnnotations code) t ∧ t.handle = h := fun {_ _} =>
    mem_freshPlumbing_iff.trans (by simp only [mem_recordings_iff])
  rw [plumbing_iff, plumbing_iff, plumbing_iff, List.append_assoc, List.singleton_append,
    withoutAnnotations_append_cons hw]
  simp only [Idiom.hasPlumbing_append_cons_iff apart' hw, or_and_right, exists_or]

/-- The codes as instructions, numbered from a handle on. -/
def numbered (first : Nat) (codes : List Code) : List Instruction :=
  codes.zipIdx.map fun c => ⟨⟨.ofNat (first + c.2)⟩, c.1⟩

/-- A loop over the local `$1` that drops the elements of an array, between two labels. -/
def countingLoop (start stop : Label) : List Code :=
  [⟨.arrayLength, .none⟩, ⟨.store .int, .var 3⟩, ⟨.constInt, .int 0⟩, ⟨.store .int, .var 1⟩, ⟨.goto, .label stop⟩,
    ⟨.label, .label start⟩, ⟨.load .int, .var 1⟩, ⟨.pop, .none⟩, ⟨.increment, .increment 1 1⟩, ⟨.label, .label stop⟩,
    ⟨.load .int, .var 1⟩, ⟨.load .int, .var 3⟩, ⟨.branch .intLt, .label start⟩]

/-- A loop and the begin of another one. -/
def loopAndHead : List Instruction :=
  numbered 0 (countingLoop ⟨0⟩ ⟨1⟩ ++ (countingLoop ⟨2⟩ ⟨3⟩).take 8)

/-- The end of a loop, and another one; all count in the same local as those in `loopAndHead`. -/
def tailAndLoop : List Instruction :=
  numbered 40 ((countingLoop ⟨4⟩ ⟨5⟩).drop 8 ++ countingLoop ⟨6⟩ ⟨7⟩)

/-- The begin of a loop and the end of another one make no loop, and both whole loops keep their plumbing. -/
theorem mem_plumbingOf_loopAndHead_tailAndLoop :
    (∀ l ∈ loopAndHead.flatMap labelsOf, l ∉ tailAndLoop.flatMap labelsOf) ∧
      isPlainWork .pop = true ∧
      (plumbingOf false ⟨methodOfB, loopAndHead⟩).value = .ofList [⟨0⟩, ⟨2⟩, ⟨8⟩, ⟨12⟩] ∧
      (plumbingOf false ⟨methodOfB, tailAndLoop⟩).value = .ofList [⟨45⟩, ⟨47⟩, ⟨53⟩, ⟨57⟩] ∧
      ∀ h, h ∈ (plumbingOf false ⟨methodOfB, loopAndHead ++ [⟨⟨30⟩, ⟨.pop, .none⟩⟩] ++ tailAndLoop⟩).value ↔
        h ∈ (plumbingOf false ⟨methodOfB, loopAndHead⟩).value ∨
          h ∈ (plumbingOf false ⟨methodOfB, tailAndLoop⟩).value := by
  have apart : ∀ l ∈ loopAndHead.flatMap labelsOf, l ∉ tailAndLoop.flatMap labelsOf := by decide +kernel
  exact ⟨apart, rfl, by decide +kernel, by decide +kernel,
    mem_plumbingOf_append_cons_iff apart rfl false methodOfB methodOfB methodOfB⟩

end ForEach
end LoopPlumbing
