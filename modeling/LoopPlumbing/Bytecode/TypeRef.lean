/- # Types in descriptors

The type that a method is declared to return, and the text by which a descriptor names it: one letter for a
primitive type, the class between `L` and `;`, and a bracket in front of the type of an array's elements.
-/

import LoopPlumbing.Bytecode.ClassName

namespace LoopPlumbing
namespace Bytecode

/-- What a method is declared to return. -/
inductive TypeRef where
  | void
  | boolean
  | int
  | long
  | float
  | double
  | object (name : ClassName)
  | array (element : TypeRef)
deriving DecidableEq

/-- The type as a descriptor writes it. -/
def TypeRef.text : TypeRef → String
  | void => "V"
  | boolean => "Z"
  | int => "I"
  | long => "J"
  | float => "F"
  | double => "D"
  | object name => "L" ++ name.internal ++ ";"
  | array element => "[" ++ element.text

end Bytecode
end LoopPlumbing
