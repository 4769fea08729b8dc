/- # The filter for for-each loops

The filter drops candidates that fall on plumbing.  While a class is in progress it remembers the plumbing
of every method that it has analysed; the memory is emptied when a class begins and when it ends.

As a feature the filter is on unless it is switched off; its parameter `debug` turns tracing on.

A candidate whose method or offset does not exist is a fault, and no candidate behind it is looked at;
what was remembered until then is kept.
-/

import LoopPlumbing.Feature.Selection
import LoopPlumbing.ForEach.Plumbing
import LoopPlumbing.Stage

namespace LoopPlumbing
namespace ForEach

open Bytecode

/-- The class in progress, the plumbing of its methods analysed so far, and whether matching is traced. -/
structure Filter where
  current : Option ClassBody
  cache : List (Location × HandleSet)
  debug : Bool
deriving DecidableEq

/-- The method at a location; a fault if the class lacks it. -/
def findMethod (c : ClassBody) (l : Location) : Except Fault MethodBody :=
  match c.method? l with
  | some m => .ok m
  | none => .error (.unknownMethod c.name.internal l.signature)

/-- The instruction that a candidate would change, with its method; a fault if there is none. -/
def resolve (c : ClassBody) (candidate : Candidate) : Except Fault (MethodBody × Instruction) := do
  let m ← findMethod c candidate.location
  match m.instruction? candidate.offset with
  | some i => .ok (m, i)
  | none =>
    .error (.instructionOutOfRange candidate.location.signature candidate.offset
      m.instructions.length)

namespace Filter

/-- No class in progress. -/
def fresh (debug : Bool) : Filter := ⟨none, [], debug⟩

/-- How many methods of the class in progress were analysed. -/
def cachedMethods (f : Filter) : Nat := f.cache.length

/-! ### Handling calls -/

/-- Starts on a class. -/
def begin (c : ClassBody) (f : Filter) : Logged Event Filter := do
  Logged.emit (.classBegun c.name)
  pure { f with current := some c, cache := [] }

/-- Leaves the class in progress, if there is one. -/
def finish (f : Filter) : Logged Event Filter := do
  if let some c := f.current then
    Logged.emit (.classEnded c.name f.cachedMethods)
  pure { f with current := none, cache := [] }

/-- The plumbing of a method, from memory or computed and remembered. -/
def analyse (m : MethodBody) (f : Filter) : Logged Event (Filter × HandleSet) :=
  match f.cache.lookup m.location with
  | some handles => pure (f, handles)
  | none => do
    let handles ← plumbingOf f.debug m
    pure ({ f with cache := (m.location, handles) :: f.cache }, handles)

/-- The plumbing of a method of the class in progress. -/
def plumbingFor (l : Location) (f : Filter) : Logged Event (Filter × Except Fault HandleSet) :=
  match f.current with
  | none => pure (f, .error .noClassInProgress)
  | some c =>
    match findMethod c l with
    | .error fault => pure (f, .error fault)
    | .ok m => do
      let (f, handles) ← f.analyse m
      pure (f, .ok handles)

/-- The candidates that do not fall on plumbing, or the fault of the first that can not be resolved. -/
def sieve (c : ClassBody) :
    List Candidate → Filter → Logged Event (Filter × Except Fault (List Candidate))
  | [], f => pure (f, .ok [])
  | candidate :: rest, f =>
    match resolve c candidate with
    | .error fault => pure (f, .error fault)
    | .ok (m, i) => do
      let (f, handles) ← f.analyse m
      let (f, kept) ← sieve c rest f
      pure (f, if i.handle ∈ handles then kept else (candidate :: ·) <$> kept)

/-- Drops the candidates that fall on plumbing of the class in progress. -/
def intercept (candidates : List Candidate) (f : Filter) :
    Logged Event (Filter × Except Fault (List Candidate)) :=
  match f.current with
  | none => pure (f, .error .noClassInProgress)
  | some c => sieve c candidates f

/-- A fresh filter as a stage. -/
def toStage (f : Filter) : Stage Event where
  kind := .filter
  State := Filter
  initial := f
  begin := begin
  intercept := intercept
  finish := finish

end Filter

/-! ### The filter as a feature -/

/-- The feature under which the filter is switched. -/
def feature : Feature :=
  ⟨"FFEACH", true, "Filters mutations in compiler generated code in for each loops"⟩

/-- Builds the filter; a fault if `debug` is given and not a truth value. -/
def factory : Factory Event where
  feature := feature
  create params :=
    match params.truth? "debug" with
    | .error fault => pure (.error fault)
    | .ok debug => pure (.ok (Filter.fresh (debug.getD false)).toStage)

end ForEach
end LoopPlumbing
