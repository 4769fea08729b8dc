/- # Class and method bodies

A class lists its methods in the order of declaration.  A method is looked up by class, name and
descriptor; of two methods with one signature the first is found.
-/

import LoopPlumbing.Bytecode.Instruction
import LoopPlumbing.Bytecode.Location

namespace LoopPlumbing
namespace Bytecode

/-- The instructions of a method, markers included. -/
structure MethodBody where
  location : Location
  instructions : List Instruction
deriving DecidableEq

namespace MethodBody

/-- The instruction at an offset. -/
def instruction? (m : MethodBody) (offset : Nat) : Option Instruction := m.instructions[offset]?

/-- Whether the method has the name and descriptor of a location. -/
def isAt (m : MethodBody) (l : Location) : Bool :=
  m.location.method = l.method && m.location.descriptor = l.descriptor

end MethodBody

/-- A class and its methods. -/
structure ClassBody where
  name : ClassName
  methods : List MethodBody
deriving DecidableEq

namespace ClassBody

/-- Where among the methods the one at a location stands. -/
def position? (c : ClassBody) (l : Location) : Option Nat :=
  if l.className = c.name then c.methods.findIdx? (·.isAt l) else none

/-- The method at a location, if the class declares it. -/
def method? (c : ClassBody) (l : Location) : Option MethodBody :=
  if l.className = c.name then c.methods.find? (·.isAt l) else none

/-- The method found is the one at the position found. -/
theorem method?_eq_bind_position? (c : ClassBody) (l : Location) :
    c.method? l = (c.position? l).bind (c.methods[·]?) := by
  unfold method? position?
  split
  · exact List.find?_eq_bind_findIdx?_getElem?
  · rfl

end ClassBody
end Bytecode
end LoopPlumbing
