/- # The shapes of the idioms as clues

What each shape asks of an instruction, said of its code.  A shape that captures a label or a local gives a
sense to a name; a shape that compares asks for what the name stands for.  That a shape is plumbing only adds
that the instruction is recorded (`tells_plumbing`).
-/

import LoopPlumbing.ForEach.Idiom
import LoopPlumbing.Proofs.Sequence.Clue

namespace LoopPlumbing
namespace ForEach

open Bytecode
open Sequence

/-- Has this opcode. -/
def Does (op : Opcode) (x : Instruction) : Prop := x.code.opcode = op

/-- Jumps to a label unconditionally. -/
def GoesTo (l : Label) (x : Instruction) : Prop := x.code = ⟨.goto, .label l⟩

/-- Jumps to a label under some condition. -/
def BranchesTo (l : Label) (x : Instruction) : Prop :=
  ∃ condition, x.code = ⟨.branch condition, .label l⟩

/-- Places a label. -/
def Places (l : Label) (x : Instruction) : Prop := x.code = ⟨.label, .label l⟩

/-- Stores an int in a local. -/
def StoresInt (index : UInt16) (x : Instruction) : Prop :=
  Does (.store .int) x ∧ x.code.var? = some index

/-- Increments a local. -/
def Increments (index : UInt16) (x : Instruction) : Prop :=
  Does .increment x ∧ x.code.var? = some index

/-- Pushes the int zero. -/
def PushesZero (x : Instruction) : Prop := Does .constInt x ∧ x.code.intValue? = some 0

/-- Calls a method that returns an iterator. -/
def GetsIterator (x : Instruction) : Prop :=
  ∃ dispatch callee, x.code = ⟨.invoke dispatch, .method callee⟩ ∧ callee.returns = .object iterator

/-- Calls the method of the iterators with this name. -/
def CallsIterator (name : String) (x : Instruction) : Prop :=
  ∃ dispatch callee, x.code = ⟨.invoke dispatch, .method callee⟩ ∧
    callee.owner = iterator ∧ callee.name = name

/-! ### Codes

What the idioms ask of an instruction is said of its code as a whole: opcode and operand together.  Labels, targets and
callees are read off a code only if its opcode has one.
-/

section Codes

variable {x : Instruction} {l : Label}

/-- A label is read off the instructions that place it. -/
theorem label?_eq_some_iff : x.code.label? = some l ↔ Places l x := by
  obtain ⟨_, opcode, operand⟩ := x
  cases opcode <;> cases operand <;> simp [Code.label?, Places]

/-- A `goto` with a target goes to it. -/
theorem goesTo_iff : Does .goto x ∧ x.code.jumpTarget? = some l ↔ GoesTo l x := by
  obtain ⟨_, opcode, operand⟩ := x
  cases opcode <;> cases operand <;> simp [Does, Code.jumpTarget?, Opcode.isJump, GoesTo]

/-- A conditional jump with a target branches to it. -/
theorem branchesTo_iff :
    x.code.opcode.isConditionalJump = true ∧ x.code.jumpTarget? = some l ↔ BranchesTo l x := by
  obtain ⟨_, opcode, operand⟩ := x
  cases opcode <;> cases operand <;>
    simp [Opcode.isConditionalJump, Code.jumpTarget?, Opcode.isJump, BranchesTo]

/-- A call is told by what is asked of the method called. -/
theorem calls_iff {p : Callee → Bool} :
    x.calls p = true ↔
      ∃ dispatch callee, x.code = ⟨.invoke dispatch, .method callee⟩ ∧ p callee = true := by
  obtain ⟨_, opcode, operand⟩ := x
  cases opcode <;> cases operand <;> simp [Instruction.calls, Code.callee?]

end Codes

/-! ### Shapes

Each shape of the vocabulary tells its own clue.  A shape that joins an opcode with a capture or a comparison tells
both, and the lemmas above make one condition of them.
-/

section Shapes

variable {α : Type} {before after : α → List (ℕ × Captured)} {s : Slot}

/-- Plumbing is told as the shape is, and recorded. -/
theorem tells_plumbing {p : Shape} {f : α → Instruction → Prop} (h : Tells before p ⟨f, false⟩ after) :
    Tells before (plumbing p) ⟨f, true⟩ after := h.recording

theorem tells_opcode (op : Opcode) : Tells before (Shape.opcode op) ⟨fun _ => Does op, false⟩ before :=
  Tells.satisfying fun _ => decide_eq_true_iff

theorem tells_conditionalJump :
    Tells before Shape.conditionalJump
      ⟨fun _ (x : Instruction) => x.code.opcode.isConditionalJump = true, false⟩ before :=
  Tells.satisfying fun _ => Iff.rfl

theorem tells_zero : Tells before (Shape.constInt 0) ⟨fun _ => PushesZero, false⟩ before :=
  Tells.satisfying fun _ => by simp [PushesZero, Does]

theorem tells_iteratorCall : Tells before iteratorCall ⟨fun _ => GetsIterator, false⟩ before :=
  Tells.satisfying fun _ => by simp [calls_iff, GetsIterator]

/-- A call of an iterator's method is told by the owner and the name. -/
theorem tells_callTo (name : String) :
    Tells before (Shape.callTo iterator name) ⟨fun _ => CallsIterator name, false⟩ before :=
  Tells.satisfying fun _ => by simp [calls_iff, CallsIterator]

/-! ### Captures

The name is new, so it takes the label that the instruction has.
-/

section Captures

variable {l : α → Label} (unbound : ∀ a, (before a).lookup s.id = none)
  (free : ∀ a m, ∃ a', before a' = before a ∧ l a' = m)
include unbound free

theorem tells_jump : Tells before (Shape.jump s)
    ⟨fun a (x : Instruction) => x.code.jumpTarget? = some (l a), false⟩
    fun a => (s.id, .label (l a)) :: before a :=
  Tells.capture (fun _ _ => Captured.label.inj) unbound free

theorem tells_goto : Tells before (Shape.goto s) ⟨fun a => GoesTo (l a), false⟩
    fun a => (s.id, .label (l a)) :: before a :=
  ((tells_opcode .goto).and (tells_jump unbound free)).congr fun _ _ => goesTo_iff

theorem tells_branch : Tells before (Shape.branch s) ⟨fun a => BranchesTo (l a), false⟩
    fun a => (s.id, .label (l a)) :: before a :=
  (tells_conditionalJump.and (tells_jump unbound free)).congr fun _ _ => branchesTo_iff

/-- A label gives the name itself. -/
theorem tells_label : Tells before (Shape.label s) ⟨fun a => Places (l a), false⟩
    fun a => (s.id, .label (l a)) :: before a := by
  have placed : Tells before (.capture s Instruction.placed?)
      ⟨fun a x => x.code.label? = some (l a), false⟩ fun a => (s.id, .label (l a)) :: before a :=
    Tells.capture (fun _ _ => Captured.label.inj) unbound free
  refine ((tells_opcode .label).and placed).congr fun a x => ?_
  rw [label?_eq_some_iff]
  exact ⟨And.right, fun h => ⟨congrArg Code.opcode h, h⟩⟩

end Captures

/-- A store of an integer gives the name its local. -/
theorem tells_storeInt {v : α → UInt16} (unbound : ∀ a, (before a).lookup s.id = none)
    (free : ∀ a index, ∃ a', before a' = before a ∧ v a' = index) :
    Tells before (Shape.store .int s) ⟨fun a => StoresInt (v a), false⟩
      fun a => (s.id, .var (v a)) :: before a :=
  (tells_opcode _).and (Tells.capture (fun _ _ => Captured.var.inj) unbound free)

/-! ### Comparisons

The name has a label already, so the instruction has to have the same one.
-/

section Comparisons

variable {l : α → Label} (bound : ∀ a, (before a).lookup s.id = some (.label (l a)))
include bound

theorem tells_jumpBound :
    Tells before (Shape.jumpBound s)
      ⟨fun a (x : Instruction) => x.code.jumpTarget? = some (l a), false⟩ before :=
  Tells.equalsBound (fun _ _ => Captured.label.inj) bound

theorem tells_gotoBound : Tells before (Shape.gotoBound s) ⟨fun a => GoesTo (l a), false⟩ before :=
  ((tells_opcode .goto).and (tells_jumpBound bound)).congr fun _ _ => goesTo_iff

theorem tells_branchBound : Tells before (Shape.branchBound s) ⟨fun a => BranchesTo (l a), false⟩ before :=
  (tells_conditionalJump.and (tells_jumpBound bound)).congr fun _ _ => branchesTo_iff

/-- The label placed has to be the one bound. -/
theorem tells_labelBound : Tells before (Shape.labelBound s) ⟨fun a => Places (l a), false⟩ before :=
  Tells.congr (Tells.equalsBound (fun _ _ => Captured.label.inj) bound)
    fun _ _ => label?_eq_some_iff

end Comparisons

/-- The local incremented has to be the one bound. -/
theorem tells_incrementBound {v : α → UInt16}
    (bound : ∀ a, (before a).lookup s.id = some (.var (v a))) :
    Tells before (Shape.incrementBound s) ⟨fun a => Increments (v a), false⟩ before :=
  (tells_opcode _).and (Tells.equalsBound (fun _ _ => Captured.var.inj) bound)

end Shapes

end ForEach
end LoopPlumbing
