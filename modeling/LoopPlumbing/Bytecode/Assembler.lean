/- # Writing method bodies

A method is written one instruction at a time.  A label is allocated before it is placed, so a jump forward
needs no patching; each instruction that is emitted takes the next free handle.  All methods of a run draw
from one `HandleSupply`, so their handles differ.

A call works on the method that it writes and on the supply that is common to all (`Writing`).  There is one
function for each call, and all that emit come down to `Writing.emit`, most of them at once, some through a
call that is more general (`aload` through `load`, `invokeStatic` through `invoke`).  A `Step` is a call as
data, so that a whole method, or several methods written side by side, can be given as a list of calls.

What each call emits is said apart from how it does it, in `LoopPlumbing.Proofs.Bytecode.Workshop`.
-/

import LoopPlumbing.Bytecode.ClassBody

namespace LoopPlumbing
namespace Bytecode

/-! ### What is written, and what is drawn from -/

/-- The handles that no instruction has yet. -/
structure HandleSupply where
  /-- The handle that goes to the next instruction. -/
  next : Handle

/-- All handles; the first is numbered 1. -/
def HandleSupply.full : HandleSupply := ⟨⟨1⟩⟩

/-- The supply without its next handle. -/
def HandleSupply.rest (s : HandleSupply) : HandleSupply := ⟨⟨s.next.number + 1⟩⟩

/-- A method that is being written; `labels` counts the labels allocated. -/
structure Draft where
  location : Location
  instructions : List Instruction
  labels : UInt32

namespace Draft

/-- A method without instructions. -/
def empty (location : Location) : Draft := ⟨location, [], 0⟩

/-- The offset of the next instruction. -/
def offset (d : Draft) : Nat := d.instructions.length

/-- The next label. -/
def freshLabel (d : Draft) : Label := ⟨d.labels⟩

/-- Allocates a label without placing it. -/
def allocate (d : Draft) : Draft := { d with labels := d.labels + 1 }

/-- Adds an instruction. -/
def emit (d : Draft) (handle : Handle) (code : Code) : Draft :=
  { d with instructions := d.instructions ++ [⟨handle, code⟩] }

/-- The method as written. -/
def finish (d : Draft) : MethodBody := ⟨d.location, d.instructions⟩

end Draft

/-! ### The calls -/

/-- A call in writing a method, which draws handles from the supply. -/
abbrev Writing := StateM (Draft × HandleSupply)

namespace Writing

/-- Allocates a label. -/
def newLabel : Writing Label := fun (d, s) => (d.freshLabel, d.allocate, s)

/-- Asks for the offset of the next instruction. -/
def currentOffset : Writing Nat := fun (d, s) => (d.offset, d, s)

/-- Adds an instruction, and gives its offset. -/
def emit (opcode : Opcode) (operand : Operand) : Writing Nat := fun (d, s) =>
  (d.offset, d.emit s.next ⟨opcode, operand⟩, s.rest)

/-- Places a label. -/
def label (l : Label) : Writing Nat := emit .label (.label l)

/-- Marks the source line. -/
def line (n : UInt32) : Writing Nat := emit .lineNumber (.line n)

/-- Marks a stack map frame. -/
def frame : Writing Nat := emit .frame .none

/-- Does nothing. -/
def nop : Writing Nat := emit .nop .none

/-- Pushes null. -/
def constNull : Writing Nat := emit .constNull .none

/-- Pushes an integer. -/
def constInt (n : Int64) : Writing Nat := emit .constInt (.int n)

/-- Loads a local. -/
def load (kind : ValueKind) (var : UInt16) : Writing Nat := emit (.load kind) (.var var)

/-- Stores a local. -/
def store (kind : ValueKind) (var : UInt16) : Writing Nat := emit (.store kind) (.var var)

/-- Loads a local that holds a reference. -/
def aload (var : UInt16) : Writing Nat := load .reference var

/-- Stores a reference in a local. -/
def astore (var : UInt16) : Writing Nat := store .reference var

/-- Loads a local that holds an int. -/
def iload (var : UInt16) : Writing Nat := load .int var

/-- Stores an int in a local. -/
def istore (var : UInt16) : Writing Nat := store .int var

/-- Adds to an int local in place. -/
def increment (var : UInt16) (amount : Int32) : Writing Nat := emit .increment (.increment var amount)

/-- Computes on the operand stack. -/
def arithmetic (kind : ValueKind) (op : Arithmetic) : Writing Nat := emit (.arithmetic kind op) .none

/-- Reads an array element. -/
def arrayLoad (kind : ValueKind) : Writing Nat := emit (.arrayLoad kind) .none

/-- Writes an array element. -/
def arrayStore (kind : ValueKind) : Writing Nat := emit (.arrayStore kind) .none

/-- Reads the length of an array. -/
def arrayLength : Writing Nat := emit .arrayLength .none

/-- Jumps if the condition holds. -/
def branch (condition : Condition) (target : Label) : Writing Nat :=
  emit (.branch condition) (.label target)

/-- Jumps. -/
def goto (target : Label) : Writing Nat := emit .goto (.label target)

/-- Returns, with a value or without. -/
def leave (kind : Option ValueKind) : Writing Nat := emit (.return kind) .none

/-- Throws the exception on top of the stack. -/
def throw : Writing Nat := emit .throw .none

/-- Calls a method. -/
def invoke (dispatch : Dispatch) (callee : Callee) : Writing Nat :=
  emit (.invoke dispatch) (.method callee)

/-- Calls a method of an interface. -/
def invokeInterface (owner name : String) (returns : TypeRef) : Writing Nat :=
  invoke .interface (.ofTexts owner name returns)

/-- Calls a method that may be overridden. -/
def invokeVirtual (owner name : String) (returns : TypeRef) : Writing Nat :=
  invoke .virtual (.ofTexts owner name returns)

/-- Calls a static method. -/
def invokeStatic (owner name : String) (returns : TypeRef) : Writing Nat :=
  invoke .static (.ofTexts owner name returns)

/-- Casts the top of the stack. -/
def checkCast (name : String) : Writing Nat := emit .checkCast (.type (.ofText name))

/-- Discards the top of the stack. -/
def pop : Writing Nat := emit .pop .none

/-- Doubles the top of the stack. -/
def dup : Writing Nat := emit .dup .none

end Writing

/-! ### Calls as data -/

/-- One call in writing a method. -/
inductive Step where
  | newLabel
  | currentOffset
  | emit (opcode : Opcode) (operand : Operand)
  | label (l : Label)
  | line (n : UInt32)
  | frame
  | nop
  | constNull
  | constInt (n : Int64)
  | load (kind : ValueKind) (var : UInt16)
  | store (kind : ValueKind) (var : UInt16)
  | aload (var : UInt16)
  | astore (var : UInt16)
  | iload (var : UInt16)
  | istore (var : UInt16)
  | increment (var : UInt16) (amount : Int32)
  | arithmetic (kind : ValueKind) (op : Arithmetic)
  | arrayLoad (kind : ValueKind)
  | arrayStore (kind : ValueKind)
  | arrayLength
  | branch (condition : Condition) (target : Label)
  | goto (target : Label)
  | leave (kind : Option ValueKind)
  | throw
  | invoke (dispatch : Dispatch) (callee : Callee)
  | invokeInterface (owner name : String) (returns : TypeRef)
  | invokeVirtual (owner name : String) (returns : TypeRef)
  | invokeStatic (owner name : String) (returns : TypeRef)
  | checkCast (name : String)
  | pop
  | dup
deriving DecidableEq

/-- What a call answers: a label, or the offset asked for or emitted at. -/
inductive Answer where
  | label (l : Label)
  | offset (n : Nat)
deriving DecidableEq

namespace Step

/-- The call, with its answer. -/
def perform : Step → Writing Answer
  | newLabel => .label <$> Writing.newLabel
  | currentOffset => .offset <$> Writing.currentOffset
  | emit opcode operand => .offset <$> Writing.emit opcode operand
  | label l => .offset <$> Writing.label l
  | line n => .offset <$> Writing.line n
  | frame => .offset <$> Writing.frame
  | nop => .offset <$> Writing.nop
  | constNull => .offset <$> Writing.constNull
  | constInt n => .offset <$> Writing.constInt n
  | load kind var => .offset <$> Writing.load kind var
  | store kind var => .offset <$> Writing.store kind var
  | aload var => .offset <$> Writing.aload var
  | astore var => .offset <$> Writing.astore var
  | iload var => .offset <$> Writing.iload var
  | istore var => .offset <$> Writing.istore var
  | increment var amount => .offset <$> Writing.increment var amount
  | arithmetic kind op => .offset <$> Writing.arithmetic kind op
  | arrayLoad kind => .offset <$> Writing.arrayLoad kind
  | arrayStore kind => .offset <$> Writing.arrayStore kind
  | arrayLength => .offset <$> Writing.arrayLength
  | branch condition target => .offset <$> Writing.branch condition target
  | goto target => .offset <$> Writing.goto target
  | leave kind => .offset <$> Writing.leave kind
  | throw => .offset <$> Writing.throw
  | invoke dispatch callee => .offset <$> Writing.invoke dispatch callee
  | invokeInterface owner name returns => .offset <$> Writing.invokeInterface owner name returns
  | invokeVirtual owner name returns => .offset <$> Writing.invokeVirtual owner name returns
  | invokeStatic owner name returns => .offset <$> Writing.invokeStatic owner name returns
  | checkCast name => .offset <$> Writing.checkCast name
  | pop => .offset <$> Writing.pop
  | dup => .offset <$> Writing.dup

/-- Makes one call. -/
def run (step : Step) (d : Draft) (s : HandleSupply) : Answer × Draft × HandleSupply :=
  (step.perform.run (d, s)).run

/-- Makes several calls, and gives their answers in order. -/
def runAll : List Step → Draft → HandleSupply → List Answer × Draft × HandleSupply
  | [], d, s => ([], d, s)
  | step :: steps, d, s =>
    let (answer, d, s) := step.run d s
    let (answers, d, s) := runAll steps d s
    (answer :: answers, d, s)

end Step
end Bytecode
end LoopPlumbing
