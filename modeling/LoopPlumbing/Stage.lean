/- # Stages

A stage works on the candidates of one class at a time: `begin`, any number of `intercept`, `finish`.  It is
a state machine with a kind that never changes and a state of its own choice; what it reports is of type
`ε`.

`idle` passes everything on, `andThen` runs one stage behind another, and `guarded` reports when a stage
that should only remove candidates adds some.  A failed `intercept` ends the chain: the stages behind it do
not see the call.
-/

import LoopPlumbing.Bytecode.ClassBody
import LoopPlumbing.Candidate
import LoopPlumbing.Event
import LoopPlumbing.Fault
import LoopPlumbing.Logged

namespace LoopPlumbing

open Bytecode (ClassBody)

/-- A state machine over the candidates of one class at a time. -/
structure Stage (ε : Type) where
  kind : StageKind
  State : Type
  initial : State
  /-- Starts on a class. -/
  begin : ClassBody → State → Logged ε State
  /-- Transforms candidates of the class, or fails. -/
  intercept : List Candidate → State → Logged ε (State × Except Fault (List Candidate))
  /-- Leaves the class. -/
  finish : State → Logged ε State

namespace Stage

variable {ε : Type}

/-- Passes candidates on as they are. -/
def idle : Stage ε where
  kind := .other
  State := Unit
  initial := ()
  begin _ s := pure s
  intercept cs s := pure (s, .ok cs)
  finish s := pure s

/-- Feeds what the first stage returns to the second. -/
def andThen (a b : Stage ε) : Stage ε where
  kind := .other
  State := a.State × b.State
  initial := (a.initial, b.initial)
  begin c s := do
    let first ← a.begin c s.1
    let second ← b.begin c s.2
    pure (first, second)
  intercept cs s := do
    match ← a.intercept cs s.1 with
    | (first, .error fault) => pure ((first, s.2), .error fault)
    | (first, .ok passed) =>
      let (second, result) ← b.intercept passed s.2
      pure ((first, second), result)
  finish s := do
    let first ← a.finish s.1
    let second ← b.finish s.2
    pure (first, second)

/-- Reports when a removing stage returns more candidates than it was given. -/
def guarded (report : Event → ε) (a : Stage ε) : Stage ε where
  kind := a.kind
  State := a.State
  initial := a.initial
  begin := a.begin
  intercept cs s := do
    let (s, result) ← a.intercept cs s
    match result with
    | .error fault => pure (s, .error fault)
    | .ok passed =>
      Logged.emitIf (a.kind.isRemoving && cs.length < passed.length)
        (report (.candidatesAdded a.kind cs.length passed.length))
      pure (s, .ok passed)
  finish := a.finish

/-- Rewords what a stage reports. -/
def mapEvents {δ : Type} (f : ε → δ) (a : Stage ε) : Stage δ where
  kind := a.kind
  State := a.State
  initial := a.initial
  begin c s := (a.begin c s).mapEvents f
  intercept cs s := (a.intercept cs s).mapEvents f
  finish s := (a.finish s).mapEvents f

end Stage
end LoopPlumbing
