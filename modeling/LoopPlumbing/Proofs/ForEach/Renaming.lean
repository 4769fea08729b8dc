/- # Names of labels and locals

Which labels a method has, which locals it uses and which handles its instructions bear is a matter of convention.
A `Renaming` gives other labels and other locals, different ones to different ones, and any handles.

The idioms ask labels and locals only whether they are equal, so what an instruction is asked for under some names it
is asked for under the new names (`Idiom.forall₂_entry`, `Idiom.forall₂_exit`), and a loop stays a loop at the same
place (`Idiom.skeleton_renamed_iff`).  There are only finitely many labels and locals, so each is the new name of some
other; a loop in the renamed code hence has names in the old code too.
-/

import LoopPlumbing.Proofs.ForEach.Screen
import Mathlib.Data.FinEnum
import Mathlib.Logic.Embedding.Basic

namespace LoopPlumbing

namespace Bytecode

/-- The handles that a function gives for those of a set. -/
def HandleSet.image (f : Handle → Handle) (s : HandleSet) : HandleSet := .ofList (s.toList.map f)

/-- A handle is in the image of a set if a handle of the set becomes it. -/
theorem HandleSet.mem_image {f : Handle → Handle} {s : HandleSet} {k : Handle} :
    k ∈ s.image f ↔ ∃ h ∈ s, f h = k := HandleSet.mem_ofList.trans List.mem_map

end Bytecode

namespace ForEach

open Bytecode
open Sequence

/-- Other labels and other locals, and any handles. -/
structure Renaming where
  label : Label ↪ Label
  index : UInt16 ↪ UInt16
  handle : Handle → Handle

/-- Whether an opcode loads, stores or increments a local. -/
def touchesLocal : Opcode → Bool
  | .load _ | .store _ | .increment => true
  | _ => false

/-- Whether an opcode places a label or jumps to one. -/
def mentionsLabel : Opcode → Bool
  | .label | .goto | .branch _ => true
  | _ => false

namespace Renaming

variable (r : Renaming)

/-- The code with the new labels where a label is placed or jumped to, and with the new locals where a local is
loaded, stored or incremented. -/
def code (c : Code) : Code :=
  match c.operand with
  | .label l => if mentionsLabel c.opcode then ⟨c.opcode, .label (r.label l)⟩ else c
  | .var index => if touchesLocal c.opcode then ⟨c.opcode, .var (r.index index)⟩ else c
  | .increment index amount =>
    if touchesLocal c.opcode then ⟨c.opcode, .increment (r.index index) amount⟩ else c
  | _ => c

/-- The instruction with its new code and its new handle. -/
def instruction (x : Instruction) : Instruction := ⟨r.handle x.handle, r.code x.code⟩

/-- What the names of a loop stand for afterwards. -/
def sense (a : Sense) : Sense := ⟨r.label a.loopStart, r.label a.loopEnd, r.index a.counter⟩

/-! ### Codes

Under other names, an instruction keeps its opcode, and of its operand only the label or the local changes.
-/

section Codes

variable (c : Code)

@[simp] theorem opcode_code : (r.code c).opcode = c.opcode := by
  unfold code
  split <;> try split
  all_goals rfl

@[simp] theorem label?_code : (r.code c).label? = c.label?.map r.label := by
  obtain ⟨opcode, operand⟩ := c
  cases operand <;> cases opcode <;> rfl

@[simp] theorem jumpTarget?_code : (r.code c).jumpTarget? = c.jumpTarget?.map r.label := by
  obtain ⟨opcode, operand⟩ := c
  cases operand <;> cases opcode <;> rfl

@[simp] theorem callee?_code : (r.code c).callee? = c.callee? := by
  obtain ⟨opcode, operand⟩ := c
  cases operand <;> cases opcode <;> rfl

@[simp] theorem intValue?_code : (r.code c).intValue? = c.intValue? := by
  obtain ⟨opcode, operand⟩ := c
  cases operand <;> cases opcode <;> rfl

/-- A local that is loaded, stored or incremented gets its new name. -/
theorem var?_code (h : touchesLocal c.opcode = true) : (r.code c).var? = c.var?.map r.index := by
  obtain ⟨opcode, operand⟩ := c
  cases operand <;> cases opcode <;> first | rfl | cases h

end Codes

/-! ### What is asked of instructions

An instruction that fits what an idiom asks for fits the same under the new names afterwards, and no other instruction
does, since different names stay different.
-/

section Fits

variable {r} {x : Instruction} {l : Label} {index : UInt16}

@[simp] theorem does_instruction {op : Opcode} : Does op (r.instruction x) ↔ Does op x := by
  simp [Does, instruction]

@[simp] theorem places_instruction : Places (r.label l) (r.instruction x) ↔ Places l x := by
  rw [← label?_eq_some_iff, ← label?_eq_some_iff]
  simp [instruction]

@[simp] theorem goesTo_instruction : GoesTo (r.label l) (r.instruction x) ↔ GoesTo l x := by
  rw [← goesTo_iff, ← goesTo_iff, does_instruction]
  simp [instruction]

@[simp] theorem branchesTo_instruction : BranchesTo (r.label l) (r.instruction x) ↔ BranchesTo l x := by
  rw [← branchesTo_iff, ← branchesTo_iff]
  simp [instruction]

/-- An instruction that touches a local touches the new one afterwards. -/
theorem touches_instruction {op : Opcode} (h : touchesLocal op = true) :
    Does op (r.instruction x) ∧ (r.instruction x).code.var? = some (r.index index) ↔
      Does op x ∧ x.code.var? = some index := by
  rw [does_instruction]
  refine and_congr_right fun does => ?_
  rw [instruction, var?_code r x.code (does ▸ h)]
  simp

@[simp] theorem storesInt_instruction : StoresInt (r.index index) (r.instruction x) ↔ StoresInt index x :=
  touches_instruction rfl

@[simp] theorem increments_instruction : Increments (r.index index) (r.instruction x) ↔ Increments index x :=
  touches_instruction rfl

@[simp] theorem pushesZero_instruction : PushesZero (r.instruction x) ↔ PushesZero x := by
  rw [PushesZero, PushesZero, does_instruction]
  simp [instruction]

theorem calls_instruction (p : Callee → Bool) : (r.instruction x).calls p = x.calls p := by
  simp [Instruction.calls, instruction]

@[simp] theorem getsIterator_instruction : GetsIterator (r.instruction x) ↔ GetsIterator x := by
  have called : ∀ y : Instruction, GetsIterator y ↔ y.calls (fun m => m.returns = .object iterator) = true :=
    fun y => by simp [calls_iff, GetsIterator]
  rw [called, called, calls_instruction]

@[simp] theorem callsIterator_instruction {name : String} :
    CallsIterator name (r.instruction x) ↔ CallsIterator name x := by
  have called : ∀ y : Instruction,
      CallsIterator name y ↔ y.calls (fun m => m.owner = iterator && m.name = name) = true :=
    fun y => by simp [calls_iff, CallsIterator]
  rw [called, called, calls_instruction]

end Fits

/-- Every sense that the names may have after the renaming comes from one before it: there are finitely many labels
and locals, so different names for different ones are all of them. -/
theorem sense_surjective : Function.Surjective r.sense := by
  have number_injective : Function.Injective Label.number := fun a b h => by
    cases a; cases b; cases h; rfl
  have : Finite Label := .of_injective _ number_injective
  rintro ⟨loopStart, loopEnd, counter⟩
  obtain ⟨loopStart, rfl⟩ := Finite.surjective_of_injective r.label.injective loopStart
  obtain ⟨loopEnd, rfl⟩ := Finite.surjective_of_injective r.label.injective loopEnd
  obtain ⟨counter, rfl⟩ := Finite.surjective_of_injective r.index.injective counter
  exact ⟨⟨loopStart, loopEnd, counter⟩, rfl⟩

end Renaming

namespace Idiom

variable {r : Renaming} {x : Idiom} {code : List Instruction} {i j : ℕ}

/-- What a loop is entered and left through is asked for under the new names. -/
theorem forall₂_rows (x : Idiom) (a : Sense) :
    List.Forall₂ (fun fits' fits => ∀ t, fits' (r.instruction t) ↔ fits t) (x.entry (r.sense a)) (x.entry a) ∧
      List.Forall₂ (fun fits' fits => ∀ t, fits' (r.instruction t) ↔ fits t) (x.exit (r.sense a)) (x.exit a) := by
  cases x <;> simp [entry, exit, Renaming.sense]

/-- **A loop stays a loop at the same place.** -/
theorem skeleton_renamed_iff : x.Skeleton (code.map r.instruction) i j ↔ x.Skeleton code i j := by
  rw [skeleton_iff, skeleton_iff, r.sense_surjective.exists]
  refine exists_congr fun a => ?_
  obtain ⟨entered, left⟩ := forall₂_rows (r := r) x a
  rw [entered.length_eq, Row.map_iff entered, Row.map_iff left]

/-- The plumbing of a loop is the same, under the new names. -/
theorem hasPlumbing_renamed_iff {t : Instruction} :
    x.HasPlumbing (code.map r.instruction) t ↔ ∃ s, x.HasPlumbing code s ∧ r.instruction s = t := by
  simp only [HasPlumbing, skeleton_renamed_iff, List.getElem?_map, Option.map_eq_some_iff]
  constructor
  · rintro ⟨i, j, skeleton, k, hk, s, hs, rfl⟩
    exact ⟨s, ⟨i, j, skeleton, k, hk, hs⟩, rfl⟩
  · rintro ⟨s, ⟨i, j, skeleton, k, hk, hs⟩, rfl⟩
    exact ⟨i, j, skeleton, k, hk, s, hs, rfl⟩

end Idiom

/-- Annotations are told by their opcodes, so they may be left out before or after the renaming. -/
theorem withoutAnnotations_renamed (r : Renaming) (code : List Instruction) :
    withoutAnnotations (code.map r.instruction) = (withoutAnnotations code).map r.instruction := by
  rw [withoutAnnotations, List.filter_map, withoutAnnotations]
  simp [Function.comp_def, Renaming.instruction]

/-- **Plumbing depends on structure, not on names.**  In any method, let the labels that are placed or jumped to and
the locals that are loaded, stored or incremented be given new names, different ones to different ones, and let the
handles be replaced by what any function makes of them.  Then the plumbing of the new code, wherever it stands, is
what the function makes of the plumbing of the old code. -/
theorem plumbingOf_renamed (r : Renaming) (debug : Bool) (l l' : Location) (code : List Instruction) :
    (plumbingOf debug ⟨l', code.map r.instruction⟩).value =
      (plumbingOf debug ⟨l, code⟩).value.image r.handle := by
  refine HandleSet.ext fun k => ?_
  rw [HandleSet.mem_image, mem_plumbingOf_iff, withoutAnnotations_renamed]
  simp only [mem_plumbingOf_iff, Idiom.hasPlumbing_renamed_iff]
  constructor
  · rintro ⟨x, -, ⟨s, hs, rfl⟩, rfl⟩
    exact ⟨s.handle, ⟨x, s, hs, rfl⟩, rfl⟩
  · rintro ⟨-, ⟨x, s, hs, rfl⟩, rfl⟩
    exact ⟨x, _, ⟨s, hs, rfl⟩, rfl⟩

/-- Labels and locals further on, and one handle for each three. -/
def furtherOn : Renaming where
  label := ⟨fun l => ⟨l.number + 7⟩, fun a b h => by cases a; cases b; simpa using h⟩
  index := ⟨fun index => index + 300, fun a b h => by simpa using h⟩
  handle h := ⟨h.number / 3⟩

/-- A loop keeps its plumbing under other names, although two instructions of it have got one handle. -/
theorem plumbingOf_furtherOn :
    (plumbingOf false ⟨methodOfB, droppingLoop⟩).value = .ofList [⟨0⟩, ⟨5⟩, ⟨9⟩, ⟨10⟩] ∧
      (droppingLoop.map furtherOn.instruction).filterMap (·.code.label?) = [⟨7⟩, ⟨8⟩] ∧
      (plumbingOf false ⟨methodOfB, droppingLoop.map furtherOn.instruction⟩).value =
        (plumbingOf false ⟨methodOfB, droppingLoop⟩).value.image furtherOn.handle ∧
      (plumbingOf false ⟨methodOfB, droppingLoop.map furtherOn.instruction⟩).value =
        .ofList [⟨0⟩, ⟨1⟩, ⟨3⟩] :=
  ⟨by decide +kernel, by decide, plumbingOf_renamed furtherOn false methodOfB methodOfB droppingLoop,
    by decide +kernel⟩

end ForEach
end LoopPlumbing
