/- # Locations

A method is identified by its class, its name and its descriptor; the descriptor tells overloads apart.
Locations are ordered field by field, texts by their code points.
-/

import LoopPlumbing.Bytecode.ClassName

namespace LoopPlumbing
namespace Bytecode

/-- Which method of which class. -/
structure Location where
  className : ClassName
  method : String
  descriptor : String
deriving DecidableEq

namespace Location

/-- Locations are ordered by class, then by name, then by descriptor. -/
instance : Ord Location where
  compare a b :=
    (compare a.className b.className).then
      ((compare a.method b.method).then (compare a.descriptor b.descriptor))

/-- Name and descriptor, as in `sum([I)I`. -/
def signature (l : Location) : String := l.method ++ l.descriptor

/-- Class and signature, as in `a/B::sum([I)I`. -/
def text (l : Location) : String := l.className.internal ++ "::" ++ l.signature

end Location
end Bytecode
end LoopPlumbing
