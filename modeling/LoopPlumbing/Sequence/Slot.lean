/- # Slots

A slot is a cell that a pattern binds once and may compare with later.  Two slots are the same only if
both identity and name agree, so a name may be used again for another cell; the values themselves live
in the context of a match (`LoopPlumbing.Sequence.Context`), never in the slot.
-/

import LoopPlumbing.Text.Quoted

namespace LoopPlumbing
namespace Sequence

/-- A named cell; `id` is its identity, the name is for messages. -/
structure Slot where
  id : Nat
  name : String
deriving DecidableEq

namespace Slot

/-- The identity as it is written in texts. -/
def identity (s : Slot) : String := "s" ++ toString s.id

/-- Name and identity, as in `counter#s0`. -/
def text (s : Slot) : String := s.name ++ "#" ++ s.identity

/-- The fields of a slot, the name quoted. -/
def record (s : Slot) : String :=
  "SlotRef \x7b id: " ++ s.identity ++ ", name: " ++ Text.quoted s.name ++ " \x7d"

/-- The slot itself, as a text for diagnosis. -/
def describe (s : Slot) : String := "Slot(" ++ s.record ++ ")"

/-- The right to compare with the slot, as a text for diagnosis. -/
def describeReader (s : Slot) : String := "SlotRead(" ++ s.record ++ ")"

/-- The right to bind the slot, as a text for diagnosis. -/
def describeWriter (s : Slot) : String := "SlotWrite(" ++ s.record ++ ")"

/-- A list of slots, as a text for diagnosis. -/
def describeAll (slots : List Slot) : String :=
  "[" ++ ", ".intercalate (slots.map record) ++ "]"

end Slot
end Sequence
end LoopPlumbing
