/- # Mutation candidates

A candidate is a proposed change of one instruction, identified by the method, the offset in its body and
the mutator that proposed it.  Identifiers are ordered field by field.
-/

import LoopPlumbing.Bytecode.Location

namespace LoopPlumbing

open Bytecode (ClassName Location)

/-- Which instruction is changed, and by which mutator. -/
structure CandidateId where
  location : Location
  index : UInt64
  mutator : String
deriving DecidableEq

namespace CandidateId

/-- Identifiers are ordered by location, then by index, then by mutator. -/
instance : Ord CandidateId where
  compare a b :=
    (compare a.location b.location).then
      ((compare a.index b.index).then (compare a.mutator b.mutator))

/-- The class whose method is changed. -/
def className (i : CandidateId) : ClassName := i.location.className

/-- Place and mutator, as in `a/B::m()V@3 [M]`. -/
def text (i : CandidateId) : String :=
  i.location.text ++ "@" ++ toString i.index ++ " [" ++ i.mutator ++ "]"

end CandidateId

/-- A proposed change; the line is zero where it is not known. -/
structure Candidate where
  id : CandidateId
  filename : String
  description : String
  line : UInt32
deriving DecidableEq

namespace Candidate

/-- The method that is changed. -/
def location (c : Candidate) : Location := c.id.location

/-- The offset of the changed instruction. -/
def offset (c : Candidate) : Nat := c.id.index.toNat

end Candidate
end LoopPlumbing
