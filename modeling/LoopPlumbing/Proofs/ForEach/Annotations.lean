/- # Line numbers and frames do not matter

The plumbing of a method depends on its code without line numbers and frames alone (`freshPlumbing_congr`).
The screen looks for instructions that are neither, and an idiom finds the same with and without them.  So
they may be inserted anywhere, with any operands and any handles: the plumbing stays the same set of
handles, and of candidates that move with their instructions the same are kept.

The engine tests what is passed over by a predicate of its own, so this is an instance of what holds of any pattern
that does not look at the cursor (`value_scan_kept`).  What is left to show is that the screen and the look-up of
candidates do not see annotations either.
-/

import LoopPlumbing.Proofs.ForEach.Session
import LoopPlumbing.Proofs.ForEach.Skeleton
import LoopPlumbing.Proofs.Sequence.Ignored

namespace LoopPlumbing
namespace ForEach

open Bytecode
open Sequence

/-! ### Plumbing

The screen and the idioms are gone through; neither sees a line number or a frame.
-/

section Plumbing

variable {debug : Bool}

/-- Neither a line number nor a frame bears the mark of a loop. -/
theorem opcode_of_loopMark {x : Instruction} (h : (loopMark.test Context.start x).value.isSome = true) :
    x.code.opcode ≠ .lineNumber ∧ x.code.opcode ≠ .frame := by
  obtain ⟨_, opcode, operand⟩ := x
  constructor <;> rintro rfl <;>
    simp [loopMark, hasNext, Shape.callTo, Shape.opcode, Instruction.calls, Code.callee?] at h

/-- The screen does not look at line numbers and frames. -/
theorem mightLoop_withoutAnnotations (code : List Instruction) :
    mightLoop (withoutAnnotations code) = mightLoop code := by
  rw [mightLoop, withoutAnnotations, List.any_filter]
  refine congrArg code.any (funext fun x => ?_)
  cases h : (loopMark.test Context.start x).value.isSome with
  | false => exact Bool.and_false _
  | true => simpa using opcode_of_loopMark h

/-- An idiom records the same without line numbers and frames. -/
theorem value_recordings_withoutAnnotations (code : List Instruction) (x : Idiom) :
    (recordings debug (withoutAnnotations code) x).value = (recordings debug code x).value := by
  have alike := map_moveTo_contexts_kept (m := x.matcher) x.blind_pattern code (Context.start.withDebug debug)
  have kept_code : kept x.matcher.options.ignores code = withoutAnnotations code := Idiom.kept_annotation code
  have recorded := congrArg (List.flatMap (·.recorded)) alike
  rw [kept_code, List.flatMap_map, List.flatMap_map] at recorded
  exact recorded

/-- The plumbing of a method, without what is logged. -/
theorem freshPlumbing_eq (m : MethodBody) :
    freshPlumbing debug m =
      if mightLoop m.instructions then
        .ofList ((Idiom.all.flatMap fun x => (recordings debug m.instructions x).value).map (·.handle))
      else .empty := by
  rw [freshPlumbing, plumbingOf]
  split
  · simp only [Logged.value_bind, Logged.value_mapEvents, Logged.value_pure, recordedHandles,
      Logged.value_map, Logged.value_gather]
  · rfl

/-- **The plumbing of a method depends on its code without line numbers and frames alone.** -/
theorem freshPlumbing_congr {m m' : MethodBody}
    (h : withoutAnnotations m'.instructions = withoutAnnotations m.instructions) :
    freshPlumbing debug m' = freshPlumbing debug m := by
  have screen : mightLoop m'.instructions = mightLoop m.instructions := by
    rw [← mightLoop_withoutAnnotations, h, mightLoop_withoutAnnotations]
  have records : ∀ x, (recordings debug m'.instructions x).value =
      (recordings debug m.instructions x).value := by
    intro x
    rw [← value_recordings_withoutAnnotations, h, value_recordings_withoutAnnotations]
  rw [freshPlumbing_eq, freshPlumbing_eq, screen]
  simp only [records]

end Plumbing

/-! ### Candidates

A candidate names an instruction by its offset.  Where annotations are put in, it moves with its instruction, and what
is asked of it, the handle, is the same.
-/

section Candidates

variable {debug : Bool} {c c' : ClassBody} {m m' : MethodBody}

/-- Candidates for instructions of one method are sieved by the plumbing of that method alone. -/
theorem sieved_of_inRange {l : Location} (hm : c.method? l = some m) {candidates : List Candidate}
    (inRange : ∀ x ∈ candidates, x.location = l ∧ x.offset < m.instructions.length) :
    sieved debug c candidates = .ok (candidates.filter fun x =>
      !(m.instruction? x.offset).any fun i => i.handle ∈ freshPlumbing debug m) := by
  have resolved : candidates.findSome? (complaint? c) = none := by
    refine List.findSome?_eq_none_iff.2 fun x hx => ?_
    obtain ⟨rfl, inside⟩ := inRange x hx
    rw [complaint?, hm]
    exact if_pos inside
  rw [sieved, resolved]
  refine congrArg Except.ok (List.filter_congr fun x hx => ?_)
  rw [changesPlumbing, (inRange x hx).1, hm, Option.any_some]

end Candidates

/-- **Line numbers and frames never influence filtering.**  Let two methods be found in classes that are in
progress, after any calls, and let the code of the second be that of the first with any number of line numbers
and frames inserted anywhere, whatever their operands and handles.  Then both have the same plumbing; and of
any candidates for instructions of the first method, the same are kept as of those for the same instructions,
where they have moved, of the second. -/
theorem filtering_eq_of_annotations {debug : Bool} {past past' : List Call} {c c' : ClassBody}
    {l l' : Location} {m m' : MethodBody} {gaps : ℕ → List Instruction}
    (h : inProgress past = some c) (hm : c.method? l = some m)
    (h' : inProgress past' = some c') (hm' : c'.method? l' = some m')
    (annotations : ∀ i, ∀ x ∈ gaps i, x.code.opcode = .lineNumber ∨ x.code.opcode = .frame)
    (inserted : m'.instructions = interleave gaps m.instructions) :
    (∃ handles, ((after debug past).plumbingFor l).value.2 = .ok handles ∧
      ((after debug past').plumbingFor l').value.2 = .ok handles) ∧
    ∀ candidates : List Candidate,
      (∀ x ∈ candidates, x.location = l ∧ x.offset < m.instructions.length) →
      ∀ moved : Candidate → Candidate,
        (∀ x ∈ candidates, (moved x).location = l' ∧ (moved x).offset = shifted gaps x.offset) →
        ∃ keep : Candidate → Bool,
          ((after debug past).intercept candidates).value.2 = .ok (candidates.filter keep) ∧
          ((after debug past').intercept (candidates.map moved)).value.2 =
            .ok ((candidates.filter keep).map moved) := by
  have same : freshPlumbing debug m' = freshPlumbing debug m := by
    refine freshPlumbing_congr ?_
    rw [inserted]
    refine filter_interleave (fun i x hx => ?_) _
    rcases annotations i x hx with e | e <;> simp [e]
  have there : ∀ offset, m'.instruction? (shifted gaps offset) = m.instruction? offset := fun offset => by
    rw [MethodBody.instruction?, inserted, getElem?_interleave, MethodBody.instruction?]
  refine ⟨⟨_, plumbingFor_after h hm, same ▸ plumbingFor_after h' hm'⟩, fun candidates inRange moved hmoved =>
    ⟨_, (intercept_after h candidates).trans (sieved_of_inRange hm inRange), ?_⟩⟩
  have inRange' : ∀ y ∈ candidates.map moved, y.location = l' ∧ y.offset < m'.instructions.length := by
    intro y hy
    obtain ⟨x, hx, rfl⟩ := List.mem_map.1 hy
    obtain ⟨place, offset⟩ := hmoved x hx
    rw [offset, inserted]
    exact ⟨place, shifted_lt_length_iff.2 (inRange x hx).2⟩
  rw [intercept_after h', sieved_of_inRange hm' inRange', List.filter_map]
  refine congrArg (Except.ok ∘ List.map moved) (List.filter_congr fun x hx => ?_)
  rw [Function.comp_apply, (hmoved x hx).2, there, same]

/-- A loop over a list whose elements are dropped. -/
def droppingLoop : List Instruction :=
  [⟨⟨0⟩, ⟨.invoke .interface, .method ⟨.ofText "java/util/List", "iterator", .object iterator⟩⟩⟩,
    ⟨⟨1⟩, ⟨.store .reference, .var 2⟩⟩,
    ⟨⟨2⟩, ⟨.goto, .label ⟨1⟩⟩⟩,
    ⟨⟨3⟩, ⟨.label, .label ⟨0⟩⟩⟩,
    ⟨⟨4⟩, ⟨.load .reference, .var 2⟩⟩,
    ⟨⟨5⟩, ⟨.invoke .interface, .method ⟨iterator, "next", .object (.ofText "java/lang/Object")⟩⟩⟩,
    ⟨⟨6⟩, ⟨.pop, .none⟩⟩,
    ⟨⟨7⟩, ⟨.label, .label ⟨1⟩⟩⟩,
    ⟨⟨8⟩, ⟨.load .reference, .var 2⟩⟩,
    ⟨⟨9⟩, ⟨.invoke .interface, .method ⟨iterator, "hasNext", .boolean⟩⟩⟩,
    ⟨⟨10⟩, ⟨.branch .ne, .label ⟨0⟩⟩⟩,
    ⟨⟨11⟩, ⟨.return none, .none⟩⟩]

/-- A method `m` of a class `a/B`. -/
def methodOfB : Location := ⟨.ofText "a/B", "m", "()V"⟩

/-- The class `a/B` if the code of its only method is this. -/
def classWith (code : List Instruction) : ClassBody := ⟨.ofText "a/B", [⟨methodOfB, code⟩]⟩

/-- Everywhere a line number that bears the handle of an instruction, and a frame that looks like a call. -/
def annotationsAnywhere (_ : ℕ) : List Instruction :=
  [⟨⟨6⟩, ⟨.lineNumber, .line 7⟩⟩, ⟨⟨0⟩, ⟨.frame, .method ⟨iterator, "hasNext", .boolean⟩⟩⟩]

/-- A candidate for each instruction of the loop. -/
def loopCandidates : List Candidate :=
  (List.range 12).map fun i => ⟨⟨methodOfB, .ofNat i, "M"⟩, "B.java", "", 0⟩

/-- A candidate where its instruction has moved. -/
def followed (gaps : ℕ → List Instruction) (x : Candidate) : Candidate :=
  { x with id := { x.id with index := .ofNat (shifted gaps x.offset) } }

/-- The loop has plumbing, and with annotations everywhere it has the same, and the same candidates are
kept. -/
theorem filtering_droppingLoop :
    ((after false [.begin (classWith droppingLoop)]).plumbingFor methodOfB).value.2 =
        .ok (.ofList [⟨0⟩, ⟨5⟩, ⟨9⟩, ⟨10⟩]) ∧
      (∃ handles,
        ((after false [.begin (classWith droppingLoop)]).plumbingFor methodOfB).value.2 = .ok handles ∧
        ((after false [.begin (classWith (interleave annotationsAnywhere droppingLoop))]).plumbingFor
          methodOfB).value.2 = .ok handles) ∧
      ∃ keep : Candidate → Bool,
        ((after false [.begin (classWith droppingLoop)]).intercept loopCandidates).value.2 =
          .ok (loopCandidates.filter keep) ∧
        ((after false [.begin (classWith (interleave annotationsAnywhere droppingLoop))]).intercept
            (loopCandidates.map (followed annotationsAnywhere))).value.2 =
          .ok ((loopCandidates.filter keep).map (followed annotationsAnywhere)) := by
  have annotations : ∀ i, ∀ x ∈ annotationsAnywhere i,
      x.code.opcode = .lineNumber ∨ x.code.opcode = .frame := fun _ => by
    simp [annotationsAnywhere]
  have begun : ∀ code, inProgress [.begin (classWith code)] = some (classWith code) := fun _ => rfl
  have found : ∀ code, (classWith code).method? methodOfB = some ⟨methodOfB, code⟩ := fun _ => by
    simp [ClassBody.method?, classWith, MethodBody.isAt, methodOfB]
  obtain ⟨plumbing, kept⟩ := filtering_eq_of_annotations (begun droppingLoop) (found droppingLoop)
    (begun (interleave annotationsAnywhere droppingLoop)) (found _) annotations rfl
  exact ⟨by decide +kernel, plumbing, kept loopCandidates (by decide +kernel) _ (by decide +kernel)⟩

end ForEach
end LoopPlumbing
