/- # The plumbing of a method

The plumbing of a method body is the set of handles that the matches of the four idioms record.  A body in
which nothing asks an iterator for more and nothing takes the length of an array has no loop, so it is not
matched at all.
-/

import LoopPlumbing.Bytecode.ClassBody
import LoopPlumbing.Bytecode.HandleSet
import LoopPlumbing.Event
import LoopPlumbing.ForEach.Idiom

namespace LoopPlumbing
namespace ForEach

open Bytecode
open Sequence (Context)

/-- A mark without which no idiom matches. -/
def loopMark : Shape := hasNext.or (Shape.opcode .arrayLength)

/-- Whether some instruction bears the mark of a loop. -/
def mightLoop (code : List Instruction) : Bool :=
  code.any fun i => (loopMark.test Context.start i).value.isSome

/-- Everything that one idiom records in a body. -/
def recordings (debug : Bool) (code : List Instruction) (i : Idiom) :
    Logged (Sequence.Event Instruction) (List Instruction) :=
  (·.flatMap (·.recorded)) <$> i.matcher.contexts code (Context.start.withDebug debug)

/-- The handles that all idioms record in a body. -/
def recordedHandles (debug : Bool) (code : List Instruction) : Logged (Sequence.Event Instruction) HandleSet :=
  (fun recorded => .ofList (recorded.map (·.handle))) <$>
    Logged.gather Idiom.all (recordings debug code)

/-- The handles of the plumbing of a method. -/
def plumbingOf (debug : Bool) (m : MethodBody) : Logged Event HandleSet :=
  if mightLoop m.instructions then do
    let handles ← (recordedHandles debug m.instructions).mapEvents .matching
    Logged.emit (.plumbingComputed m.location m.instructions.length handles.size)
    pure handles
  else do
    Logged.emit (.screenedOut m.location)
    pure .empty

end ForEach
end LoopPlumbing
