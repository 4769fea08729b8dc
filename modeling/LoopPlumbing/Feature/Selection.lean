/- # Selecting features

Each factory provides one feature and builds a stage for it.  A feature runs if the last setting that names
it switches it on, or if no setting names it and it is on by default; it gets the parameters of that last
setting.  A setting that names no feature is a fault.
-/

import LoopPlumbing.Feature.Basic
import LoopPlumbing.Feature.Setting
import LoopPlumbing.Pipeline

namespace LoopPlumbing

/-- Provides a feature and builds its stage from parameters. -/
structure Factory (ε : Type) where
  feature : Feature
  create : Params → Logged ε (Except Fault (Stage ε))

/-- Rewords what a factory and its stage report. -/
def Factory.mapEvents {ε δ : Type} (f : ε → δ) (a : Factory ε) : Factory δ where
  feature := a.feature
  create params := ((·.map (·.mapEvents f)) <$> a.create params).mapEvents f

/-- The factories that run, each with its parameters. -/
structure Selection (ε : Type) where
  active : List (Factory ε × Params)

namespace Selection

variable {ε : Type}

/-- The last setting that names a feature. -/
def deciding? (settings : List Setting) (f : Feature) : Option Setting :=
  settings.reverse.find? fun s => f.isNamed s.name

/-- The parameters with which a feature runs, if it runs. -/
def activation? (settings : List Setting) (f : Feature) : Option Params :=
  match deciding? settings f with
  | none => if f.onByDefault then some .empty else none
  | some s => if s.enabled then some s.params else none

/-- Decides which factories run. -/
def ofSettings (settings : List Setting) (factories : List (Factory ε)) :
    Except Fault (Selection ε) :=
  match settings.find? fun s => !factories.any fun f => f.feature.isNamed s.name with
  | some s => .error (.invalidSetting (.unknownFeature s.name))
  | none =>
    .ok ⟨factories.filterMap fun f => (activation? settings f.feature).map fun p => (f, p)⟩

/-- Reads all settings, then decides. -/
def ofTexts (texts : List String) (factories : List (Factory ε)) : Except Fault (Selection ε) :=
  match texts.mapM Setting.parse with
  | .error fault => .error fault
  | .ok settings => ofSettings settings factories

/-- The features that run. -/
def features (s : Selection ε) : List Feature := s.active.map (·.1.feature)

/-- Builds the stages in order, until one can not be built. -/
def createAll : List (Factory ε × Params) → Logged ε (Except Fault (List (Stage ε)))
  | [] => pure (.ok [])
  | (factory, params) :: rest => do
    match ← factory.create params with
    | .error fault => pure (.error fault)
    | .ok stage =>
      match ← createAll rest with
      | .error fault => pure (.error fault)
      | .ok stages => pure (.ok (stage :: stages))

/-- Builds the pipeline of all features that run. -/
def build (s : Selection ε) : Logged ε (Except Fault (Pipeline ε)) := do
  match ← createAll s.active with
  | .error fault => pure (.error fault)
  | .ok stages => pure (.ok (.ofStages stages))

end Selection
end LoopPlumbing
