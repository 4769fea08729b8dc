/- # Predicates on instructions

The vocabulary in which the idioms of compiled code are written: what an instruction is, which label it
places or jumps to, which local it touches, which method it calls.  Labels, locals and constants can be
captured in a slot and compared with later.

Shapes are predicates of the vocabulary for any kind of token; nothing about them is special to
instructions but what they read.  Those that are not used by an idiom are there for patterns of one's
own.
-/

import LoopPlumbing.Bytecode.Instruction
import LoopPlumbing.Sequence.Predicate

namespace LoopPlumbing
namespace Bytecode

open Sequence (Predicate Slot)

/-- What a slot can capture from an instruction. -/
inductive Captured where
  | label (l : Label)
  | var (index : UInt16)
  | int (value : Int64)
deriving DecidableEq

/-- A predicate on instructions. -/
abbrev Shape := Predicate Instruction Captured

namespace Instruction

/-- The label that a marker places, to be captured. -/
def placed? (i : Instruction) : Option Captured := i.code.label?.map .label

/-- The label that a jump goes to, to be captured. -/
def target? (i : Instruction) : Option Captured := i.code.jumpTarget?.map .label

/-- The local that is touched, to be captured. -/
def local? (i : Instruction) : Option Captured := i.code.var?.map .var

/-- The constant, to be captured. -/
def constant? (i : Instruction) : Option Captured := i.code.intValue?.map .int

/-- Whether this calls a method that has a property. -/
def calls (i : Instruction) (p : Callee → Bool) : Bool := i.code.callee?.any p

end Instruction

namespace Shape

/-- Any instruction or marker. -/
def any : Shape := .always

/-- Exactly this opcode. -/
def opcode (op : Opcode) : Shape := .satisfying (·.code.opcode = op)

/-- An instruction, not a marker. -/
def real : Shape := .satisfying (·.code.opcode.isInstruction)

/-- Whether a marker stands for a place in the source or a stack map frame; unlike a label, it is never
jumped to. -/
def isAnnotation (i : Instruction) : Bool :=
  match i.code.opcode with
  | .lineNumber | .frame => true
  | _ => false

/-- A line number or a frame. -/
def annotation : Shape := .satisfying isAnnotation

/-! ### Shapes with slots

The forms without a suffix capture what they find; those with `Bound` compare it with what is captured
already.
-/

/-- A label; which one is captured. -/
def label (s : Slot) : Shape := (opcode .label).and (.capture s Instruction.placed?)

/-- The label captured before. -/
def labelBound (s : Slot) : Shape := .equalsBound s Instruction.placed?

/-- A conditional jump. -/
def conditionalJump : Shape := .satisfying (·.code.opcode.isConditionalJump)

/-- A jump; where it goes is captured. -/
def jump (s : Slot) : Shape := .capture s Instruction.target?

/-- A jump to the label captured before. -/
def jumpBound (s : Slot) : Shape := .equalsBound s Instruction.target?

/-- A conditional jump; where it goes is captured. -/
def branch (s : Slot) : Shape := conditionalJump.and (jump s)

/-- A conditional jump to the label captured before. -/
def branchBound (s : Slot) : Shape := conditionalJump.and (jumpBound s)

/-- An unconditional jump; where it goes is captured. -/
def goto (s : Slot) : Shape := (opcode .goto).and (jump s)

/-- An unconditional jump to the label captured before. -/
def gotoBound (s : Slot) : Shape := (opcode .goto).and (jumpBound s)

/-- A store; the local is captured. -/
def store (kind : ValueKind) (s : Slot) : Shape :=
  (opcode (.store kind)).and (.capture s Instruction.local?)

/-- An increment of the local captured before. -/
def incrementBound (s : Slot) : Shape :=
  (opcode .increment).and (.equalsBound s Instruction.local?)

/-- The constant with this value. -/
def constInt (n : Int64) : Shape :=
  .satisfying fun i => i.code.opcode = .constInt && i.code.intValue? = some n

/-! ### Calls -/

/-- A call of this method of this class, however it is dispatched. -/
def callTo (owner : ClassName) (name : String) : Shape :=
  .satisfying (·.calls fun m => m.owner = owner && m.name = name)

/-- A call of a method with this name. -/
def callNamed (name : String) : Shape := .satisfying (·.calls fun m => m.name = name)

/-- A call of a method declared to return this type. -/
def callReturning (type : TypeRef) : Shape := .satisfying (·.calls fun m => m.returns = type)

end Shape
end Bytecode
end LoopPlumbing
