/- # Instructions

A method body is a list of instructions.  What an instruction does is its `Code`, an opcode with an
operand; an `Instruction` is a code at one place, told apart from equal codes elsewhere by its handle.
Labels, line numbers and frames stand in the list as markers that do nothing.

Opcode and operand need not fit together: `var?`, `intValue?`, `jumpTarget?`, `label?` and `callee?` give
what a code really has.

Nothing checks that operand and opcode belong together, nor that a label is placed that is jumped to.
Whoever asks about an instruction asks for both.
-/

import LoopPlumbing.Bytecode.TypeRef

namespace LoopPlumbing
namespace Bytecode

/-! ### Names

Handles and labels are numbers and nothing else.  The builder of a method hands them out.
-/

/-- The identity of one instruction. -/
structure Handle where
  number : UInt64
deriving DecidableEq

/-- The identity of a jump target. -/
structure Label where
  number : UInt32
deriving DecidableEq

/-- A label as it is written in texts. -/
def Label.text (l : Label) : String := "L" ++ toString l.number

/-! ### What opcodes are about -/

/-- The kind of value in a local, a constant or an array element. -/
inductive ValueKind where
  | int
  | long
  | float
  | double
  | reference
deriving DecidableEq

/-- The name of a kind in texts. -/
def ValueKind.text : ValueKind → String
  | int => "Int"
  | long => "Long"
  | float => "Float"
  | double => "Double"
  | reference => "Reference"

/-- All kinds of values. -/
def ValueKind.all : List ValueKind := [int, long, float, double, reference]

/-- Arithmetic on the operand stack. -/
inductive Arithmetic where
  | add
  | sub
  | mul
  | div
  | rem
  | neg
deriving DecidableEq

/-- The name of an operation in texts. -/
def Arithmetic.text : Arithmetic → String
  | add => "Add"
  | sub => "Sub"
  | mul => "Mul"
  | div => "Div"
  | rem => "Rem"
  | neg => "Neg"

/-- All operations. -/
def Arithmetic.all : List Arithmetic := [add, sub, mul, div, rem, neg]

/-- When a conditional jump is taken: a comparison with zero, of two ints, or with null. -/
inductive Condition where
  | eq
  | ne
  | lt
  | ge
  | gt
  | le
  | intEq
  | intNe
  | intLt
  | intGe
  | intGt
  | intLe
  | null
  | nonNull
deriving DecidableEq

/-- The name of a condition in texts. -/
def Condition.text : Condition → String
  | eq => "Eq"
  | ne => "Ne"
  | lt => "Lt"
  | ge => "Ge"
  | gt => "Gt"
  | le => "Le"
  | intEq => "IntEq"
  | intNe => "IntNe"
  | intLt => "IntLt"
  | intGe => "IntGe"
  | intGt => "IntGt"
  | intLe => "IntLe"
  | null => "Null"
  | nonNull => "NonNull"

/-- All conditions. -/
def Condition.all : List Condition :=
  [eq, ne, lt, ge, gt, le, intEq, intNe, intLt, intGe, intGt, intLe, null, nonNull]

/-- How the target of a call is found. -/
inductive Dispatch where
  | virtual
  | interface
  | static
  | special
deriving DecidableEq

/-- The name of a way of dispatch in texts. -/
def Dispatch.text : Dispatch → String
  | virtual => "Virtual"
  | interface => "Interface"
  | static => "Static"
  | special => "Special"

/-- All ways of dispatch. -/
def Dispatch.all : List Dispatch := [virtual, interface, static, special]

/-! ### Opcodes

Opcodes are kept apart from operands, so that a pattern may ask for the one without the other.
-/

/-- What an instruction does; the last three are markers. -/
inductive Opcode where
  | nop
  | constNull
  | constInt
  | load (kind : ValueKind)
  | store (kind : ValueKind)
  | increment
  | arithmetic (kind : ValueKind) (op : Arithmetic)
  | arrayLoad (kind : ValueKind)
  | arrayStore (kind : ValueKind)
  | arrayLength
  | branch (condition : Condition)
  | goto
  | invoke (dispatch : Dispatch)
  | checkCast
  | pop
  | dup
  | return (kind : Option ValueKind)
  | throw
  | label
  | lineNumber
  | frame
deriving DecidableEq

namespace Opcode

/-- Whether this is an instruction rather than a marker. -/
def isInstruction : Opcode → Bool
  | label | lineNumber | frame => false
  | _ => true

/-- Whether this jumps under a condition. -/
def isConditionalJump : Opcode → Bool
  | branch _ => true
  | _ => false

/-- Whether this jumps to a label. -/
def isJump : Opcode → Bool
  | branch _ | goto => true
  | _ => false

/-- The name of an opcode in texts, with its parameters. -/
def text : Opcode → String
  | nop => "Nop"
  | constNull => "ConstNull"
  | constInt => "ConstInt"
  | load kind => "Load(" ++ kind.text ++ ")"
  | store kind => "Store(" ++ kind.text ++ ")"
  | increment => "Increment"
  | arithmetic kind op => "Arithmetic(" ++ kind.text ++ ", " ++ op.text ++ ")"
  | arrayLoad kind => "ArrayLoad(" ++ kind.text ++ ")"
  | arrayStore kind => "ArrayStore(" ++ kind.text ++ ")"
  | arrayLength => "ArrayLength"
  | branch condition => "Branch(" ++ condition.text ++ ")"
  | goto => "Goto"
  | invoke dispatch => "Invoke(" ++ dispatch.text ++ ")"
  | checkCast => "CheckCast"
  | pop => "Pop"
  | dup => "Dup"
  | .return none => "Return(None)"
  | .return (some kind) => "Return(Some(" ++ kind.text ++ "))"
  | throw => "Throw"
  | label => "Label"
  | lineNumber => "LineNumber"
  | frame => "Frame"

/-- The opcodes without parameters. -/
def plain : List Opcode :=
  [nop, constNull, constInt, increment, arrayLength, goto, checkCast, pop, dup, throw, label,
    lineNumber, frame]

end Opcode

/-! ### Operands -/

/-- The target of a call. -/
structure Callee where
  owner : ClassName
  name : String
  returns : TypeRef
deriving DecidableEq

/-- The target of a call, its owner as it is spelled. -/
def Callee.ofTexts (owner name : String) (returns : TypeRef) : Callee := ⟨.ofText owner, name, returns⟩

/-- What an opcode is applied to. -/
inductive Operand where
  | none
  | int (value : Int64)
  | var (index : UInt16)
  | increment (index : UInt16) (amount : Int32)
  | label (target : Label)
  | method (callee : Callee)
  | type (name : ClassName)
  | line (number : UInt32)
deriving DecidableEq

/-- The operand behind its opcode, with a blank in front, if there is one. -/
def Operand.text : Operand → String
  | none => ""
  | int value => " " ++ toString value.toInt
  | var index => " $" ++ toString index
  | increment index amount => " $" ++ toString index ++ " " ++ toString amount.toInt
  | label target => " " ++ target.text
  | method callee => " " ++ callee.owner.internal ++ "." ++ callee.name ++ "()->" ++ callee.returns.text
  | type name => " " ++ name.internal
  | line number => " " ++ toString number

/-! ### Codes and instructions

A target, a label and a callee are read off a code only if its opcode has one; a local and a constant
are read off the operand, whatever the opcode.
-/

/-- An opcode with its operand. -/
structure Code where
  opcode : Opcode
  operand : Operand
deriving DecidableEq

namespace Code

/-- The local that is loaded, stored or incremented. -/
def var? (c : Code) : Option UInt16 :=
  match c.operand with
  | .var index | .increment index _ => some index
  | _ => none

/-- The constant, or the amount of an increment. -/
def intValue? (c : Code) : Option Int64 :=
  match c.operand with
  | .int value => some value
  | .increment _ amount => some amount.toInt64
  | _ => none

/-- The label that a jump goes to. -/
def jumpTarget? (c : Code) : Option Label :=
  match c.opcode.isJump, c.operand with
  | true, .label target => some target
  | _, _ => none

/-- The label that a marker places. -/
def label? (c : Code) : Option Label :=
  match c.opcode, c.operand with
  | .label, .label target => some target
  | _, _ => none

/-- The target of a call. -/
def callee? (c : Code) : Option Callee :=
  match c.opcode, c.operand with
  | .invoke _, .method callee => some callee
  | _, _ => none

/-- Opcode and operand, as in `Increment $4 -5`. -/
def text (c : Code) : String := c.opcode.text ++ c.operand.text

end Code

/-- A code at one place of a method. -/
structure Instruction where
  handle : Handle
  code : Code
deriving DecidableEq

end Bytecode
end LoopPlumbing
