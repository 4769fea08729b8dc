/- # The JSON form of candidates and settings

How locations, candidates, kinds of stages and settings are exchanged.  A class is a text in either
spelling and is written with slashes; the parameters of a setting may be missing and are always written.
What is written is read back as the same value.
-/

import LoopPlumbing.Candidate
import LoopPlumbing.Feature.Setting
import LoopPlumbing.Json.Value
import LoopPlumbing.StageKind

namespace LoopPlumbing

open Bytecode (ClassName Location)

namespace Bytecode

/-- Reads a class name, dotted or slashed. -/
def ClassName.ofJson? (j : Json) : Option ClassName := .ofText <$> j.text?

/-- Writes a class name with slashes. -/
def ClassName.toJson (n : ClassName) : Json := .text n.internal

/-- Reads a location. -/
def Location.ofJson? (j : Json) : Option Location :=
  match j.recordFields ["class", "method", "descriptor"] with
  | some [some className, some method, some descriptor] => do
    let className ← ClassName.ofJson? className
    let method ← method.text?
    let descriptor ← descriptor.text?
    return ⟨className, method, descriptor⟩
  | _ => none

/-- Writes a location. -/
def Location.toJson (l : Location) : Json :=
  .object [("class", l.className.toJson), ("method", .text l.method),
    ("descriptor", .text l.descriptor)]

end Bytecode

/-- Reads the identifier of a candidate. -/
def CandidateId.ofJson? (j : Json) : Option CandidateId :=
  match j.recordFields ["location", "index", "mutator"] with
  | some [some location, some index, some mutator] => do
    let location ← Location.ofJson? location
    let index ← index.below? UInt64.size
    let mutator ← mutator.text?
    return ⟨location, .ofNat index, mutator⟩
  | _ => none

/-- Writes the identifier of a candidate. -/
def CandidateId.toJson (i : CandidateId) : Json :=
  .object [("location", i.location.toJson), ("index", .integer i.index.toNat),
    ("mutator", .text i.mutator)]

/-- Reads a candidate. -/
def Candidate.ofJson? (j : Json) : Option Candidate :=
  match j.recordFields ["id", "filename", "description", "line_number"] with
  | some [some id, some filename, some description, some line] => do
    let id ← CandidateId.ofJson? id
    let filename ← filename.text?
    let description ← description.text?
    let line ← line.below? UInt32.size
    return ⟨id, filename, description, .ofNat line⟩
  | _ => none

/-- Writes a candidate. -/
def Candidate.toJson (c : Candidate) : Json :=
  .object [("id", c.id.toJson), ("filename", .text c.filename), ("description", .text c.description),
    ("line_number", .integer c.line.toNat)]

/-! ### Kinds of stages, parameters and settings -/

/-- Reads a kind of stage: its name, alone or as the only key of an object that holds null. -/
def StageKind.ofJson? : Json → Option StageKind
  | .text s => StageKind.ofText? s
  | .object [(s, .null)] => StageKind.ofText? s
  | _ => none

/-- Writes a kind of stage. -/
def StageKind.toJson (k : StageKind) : Json := .text k.text

/-- Reads parameters: an object that holds a list of texts for each key. -/
def Params.ofJson? : Json → Option Params
  | .object fields =>
    .ofEntries <$> fields.mapM fun field => (fun values => (field.1, values)) <$> field.2.texts?
  | _ => none

/-- Writes parameters. -/
def Params.toJson (p : Params) : Json :=
  .object (p.entries.map fun e => (e.1, .list (e.2.map .text)))

/-- Reads a setting; it has no parameters if they are missing. -/
def Setting.ofJson? (j : Json) : Option Setting :=
  match j.recordFields ["name", "enabled", "params"] with
  | some [some name, some enabled, params] => do
    let name ← name.text?
    let enabled ← enabled.bool?
    let params ← match params with
      | none => some Params.empty
      | some params => Params.ofJson? params
    return ⟨name, enabled, params⟩
  | _ => none

/-- Writes a setting. -/
def Setting.toJson (s : Setting) : Json :=
  .object [("name", .text s.name), ("enabled", .bool s.enabled), ("params", s.params.toJson)]

end LoopPlumbing
