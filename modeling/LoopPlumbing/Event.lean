/- # Events

Everything that the library reports, with the level, the wording and the fields under which it is
written to a log.

What happens on the way of a match is worded for tokens of any kind (`Sequence.Event.message`); the
library itself matches instructions only.  What a predicate reports reaches the log as the predicate
worded it.
-/

import LoopPlumbing.Bytecode.Instruction
import LoopPlumbing.Bytecode.Location
import LoopPlumbing.Sequence.Predicate
import LoopPlumbing.StageKind

namespace LoopPlumbing

open Bytecode (ClassName Instruction Location)

/-- Something that happened. -/
inductive Event where
  /-- Matching a body reported something. -/
  | matching (e : Sequence.Event Instruction)
  /-- A method without any mark of a loop was not matched at all. -/
  | screenedOut (method : Location)
  /-- A method was matched; so many of its instructions are plumbing. -/
  | plumbingComputed (method : Location) (instructions plumbing : Nat)
  /-- The filter starts on a class. -/
  | classBegun (name : ClassName)
  /-- The filter leaves a class after analysing so many of its methods. -/
  | classEnded (name : ClassName) (methods : Nat)
  /-- A stage that should only remove candidates returned more than it was given. -/
  | candidatesAdded (stage : StageKind) (before after : Nat)
deriving DecidableEq

/-- How much an event matters. -/
inductive Level where
  | trace
  | debug
  | warn
deriving DecidableEq

/-- The name of a level in a log. -/
def Level.text : Level → String
  | trace => "TRACE"
  | debug => "DEBUG"
  | warn => "WARN"

/-- A value logged with an event, where tokens are of type `τ`. -/
inductive Field (τ : Type) where
  | count (n : Nat)
  | flag (b : Bool)
  | text (s : String)
  | token (t : τ)
deriving DecidableEq

/-! ### On the way of a match -/

namespace Sequence.Event

variable {τ : Type}

/-- A checkpoint was set by somebody who wants to see it; a token that is tested matters less. -/
def level : Event τ → Level
  | tokenTested _ _ _ => .trace
  | checkpoint _ _ _ => .debug
  | reported e => e.level

/-- The wording of an event of a match. -/
def message : Event τ → String
  | tokenTested _ _ _ => "sequence token"
  | checkpoint _ _ _ => "sequence match"
  | reported e => e.message

/-- What is logged beside the wording, the token included. -/
def fields : Event τ → List (String × Field τ)
  | tokenTested position t matched =>
    [("position", .count position), ("token", .token t), ("matched", .flag matched)]
  | checkpoint label position t =>
    [("label", .text label), ("position", .count position), ("token", .token t)]
  | reported e => e.fields

end Sequence.Event

/-! ### In the library -/

namespace Event

/-- A stage that breaks its promise is worth a warning. -/
def level : Event → Level
  | matching e => e.level
  | screenedOut _ => .trace
  | candidatesAdded _ _ _ => .warn
  | plumbingComputed _ _ _ | classBegun _ | classEnded _ _ => .debug

/-- The wording of an event. -/
def message : Event → String
  | matching e => e.message
  | screenedOut _ => "no loop markers, skipping"
  | plumbingComputed _ _ _ => "computed for-each plumbing"
  | classBegun _ => "for-each filter begin"
  | classEnded _ _ => "for-each filter end"
  | candidatesAdded _ _ _ => "removing interceptor added candidates"

/-- What is logged beside the wording. -/
def fields : Event → List (String × Field Instruction)
  | matching e => e.fields
  | screenedOut method => [("method", .text method.text)]
  | plumbingComputed method instructions plumbing =>
    [("method", .text method.text), ("instructions", .count instructions),
      ("plumbing", .count plumbing)]
  | classBegun name => [("class", .text name.internal)]
  | classEnded name methods => [("class", .text name.internal), ("methods", .count methods)]
  | candidatesAdded stage before after =>
    [("interceptor", .text stage.label), ("before", .count before), ("after", .count after)]

end Event
end LoopPlumbing
