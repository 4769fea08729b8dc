/- # Which offsets a filter removes

The filter knows the plumbing of a method by handles.  A handle stands for an offset as long as no two instructions of
the method share one, and then a candidate is dropped exactly if a match has recorded at that very offset
(`handle_mem_freshPlumbing_iff`); that an equal instruction was recorded elsewhere is not enough.

Contexts hold what was recorded, not where.  Where is read off the path of the match, and what is recorded there is what
the context holds (`Idiom.mem_recordings_iff_recordsAt`).  That handles are not shared is owed to the supply from which
all methods draw, however the writing of one is mixed with that of others (`Workshop.Builds.nodup_handles`), and that a
call answers with the offset of its own instruction and no other, to the same (`Workshop.exists_landsAt`).
-/

import LoopPlumbing.Proofs.Bytecode.Workshop
import LoopPlumbing.Proofs.ForEach.Annotations
import LoopPlumbing.Proofs.ForEach.Screen
import LoopPlumbing.Proofs.ForEach.Vocabulary
import LoopPlumbing.Proofs.Sequence.Path

namespace LoopPlumbing
namespace ForEach

open Bytecode
open Bytecode.Workshop (opened)
open Sequence

/-- Some match of the idiom records the instruction at the offset: the match has been reached on a path on which the
token there is recorded. -/
def Idiom.RecordsAt (x : Idiom) (debug : Bool) (code : List Instruction) (offset : ℕ) : Prop :=
  ∃ d ∈ (x.matcher.contexts code (Context.start.withDebug debug)).value,
    ∃ g : Grammar Instruction Captured, g.pattern .equalsBound = x.pattern ∧
      ∃ (start stop : ℕ) (path : g.Path Shape.annotation code
        ((Context.start.withDebug debug).moveTo start) (d.moveTo stop)), path.Records offset

section Method

variable {debug : Bool} {code : List Instruction} {offset : ℕ}

/-- **What an idiom records, it records at some offset.** -/
theorem Idiom.mem_recordings_iff_recordsAt {x : Idiom} {t : Instruction} :
    t ∈ (recordings debug code x).value ↔ ∃ offset, x.RecordsAt debug code offset ∧ code[offset]? = some t := by
  rw [recordings, Logged.value_map, List.mem_flatMap]
  constructor
  · rintro ⟨d, hd, ht⟩
    obtain ⟨g, hg⟩ := x.exists_grammar
    obtain ⟨start, stop, ⟨path⟩⟩ := exists_path_of_mem_contexts (m := x.matcher) hg.symm hd
    rcases path.mem_recorded_iff.1 ht with none_before | ⟨offset, records, there⟩
    · cases none_before
    · exact ⟨offset, ⟨d, hd, g, hg, start, stop, path, records⟩, there⟩
  · rintro ⟨offset, ⟨d, hd, g, -, start, stop, path, records⟩, there⟩
    exact ⟨d, hd, path.mem_recorded_iff.2 (.inr ⟨offset, records, there⟩)⟩

/-- **A handle is plumbing exactly if its offset was recorded**, in a method whose instructions share no handle. -/
theorem handle_mem_freshPlumbing_iff {m : MethodBody} (distinct : (m.instructions.map (·.handle)).Nodup)
    {t : Instruction} (there : m.instruction? offset = some t) :
    t.handle ∈ freshPlumbing debug m ↔ ∃ x : Idiom, x.RecordsAt debug m.instructions offset := by
  rw [mem_freshPlumbing_iff]
  refine exists_congr fun x => ⟨?_, fun records => ⟨t, ?_, rfl⟩⟩
  · rintro ⟨u, hu, same⟩
    obtain ⟨elsewhere, records, found⟩ := Idiom.mem_recordings_iff_recordsAt.1 hu
    obtain rfl := eq_of_handle_eq distinct found there same
    exact records
  · exact Idiom.mem_recordings_iff_recordsAt.2 ⟨offset, records, there⟩

/-- A candidate that can be resolved changes plumbing exactly if its offset was recorded. -/
theorem changesPlumbing_iff {c : ClassBody} {y : Candidate} (resolved : complaint? c y = none) {m : MethodBody}
    (hm : c.method? y.location = some m) (distinct : (m.instructions.map (·.handle)).Nodup) :
    changesPlumbing debug c y = true ↔ ∃ x : Idiom, x.RecordsAt debug m.instructions y.offset := by
  obtain ⟨m', t, hm', there, -⟩ := resolve_of_no_complaint resolved
  obtain rfl : m' = m := Option.some.inj (hm'.symm.trans hm)
  rw [← handle_mem_freshPlumbing_iff distinct there, changesPlumbing, hm, Option.any_some, there, Option.any_some,
    decide_eq_true_eq]

end Method

/-- **Handles tell offsets apart.**  Any number of methods are written side by side, with any calls in any order:
labels allocated, instructions emitted by any of the calls that emit, offsets asked for, methods built as they are by
then.  As long as neither the numbers for handles nor those for the labels of one method run out, so from the full
supply, whose first handle is numbered 1, for fewer than `2 ^ 64 - 1` instructions in all and fewer than `2 ^ 32` labels
in each method,

* the instructions emitted in all these methods have handles that go up from one emission to the next, so no two share
  one;
* each call that emits by the table `Step.code?` emits one instruction with the opcode and the operand of its row, and
  gives back an offset; in each method that is built later, this very instruction is found there and nowhere else
  (`Workshop.LandsAt`);
* what is built under a key is what was emitted there until then, in order;
* each label of a method is given back by the call that allocates it, and all of them are different.

So if a method that was built is found in a class in progress, after any calls on the filter, then of any candidates
that can be resolved those in the method are dropped exactly if some match of some idiom has recorded at their very
offset; an equal instruction that was recorded elsewhere does not drop them. -/
theorem handles_tell_offsets {ι : Type} [DecidableEq ι] (location : ι → Location) (s : HandleSupply)
    (calls : List (Workshop.Call ι))
    (handles : s.next.number.toNat + ((opened location s).emissions calls).length < UInt64.size)
    (labels : ∀ i, ((opened location s).labels i calls).length < UInt32.size) :
    (((opened location s).emissions calls).Pairwise fun e e' =>
        e.instruction.handle.number < e'.instruction.handle.number) ∧
      (((opened location s).emissions calls).map (·.instruction.handle)).Nodup ∧
      (∀ before i step rest code, calls = before ++ .step i step :: rest → step.code? = some code →
        ∃ e n, (opened location s).LandsAt before i step rest e n ∧ e.instruction.code = code) ∧
      (∀ before i rest, calls = before ++ .finish i :: rest →
        (opened location s).replyTo before (.finish i) = .method
          ⟨location i, (((opened location s).emissions before).filter (·.key = i)).map (·.instruction)⟩) ∧
      (∀ before i rest, calls = before ++ .step i .newLabel :: rest →
        ∃ l, (opened location s).replyTo before (.step i .newLabel) = .answer (.label l) ∧
          (opened location s).labels i calls = (opened location s).labels i before ++
            l :: ((opened location s).after (before ++ [.step i .newLabel])).labels i rest) ∧
      (∀ i, ((opened location s).labels i calls).Nodup) ∧
      ∀ (debug : Bool) (past : List Call) (c : ClassBody), inProgress past = some c →
        ∀ candidates : List Candidate, (∀ y ∈ candidates, complaint? c y = none) →
          ∃ keep : Candidate → Bool,
            ((after debug past).intercept candidates).value.2 = .ok (candidates.filter keep) ∧
              ∀ y ∈ candidates, ∀ i m, (opened location s).Builds calls i m →
                c.method? y.location = some m →
                (keep y = false ↔ ∃ x : Idiom, x.RecordsAt debug m.instructions y.offset) := by
  have going_up := Workshop.pairwise_emissions (w := opened location s) calls handles
  refine ⟨going_up.imp UInt64.lt_iff_toNat_lt.2, Workshop.nodup_handles calls handles, ?_, ?_, ?_, fun i => ?_,
    fun debug past c h candidates resolved => ?_⟩
  · rintro before i step rest code rfl h
    exact Workshop.exists_landsAt handles h
  · exact fun before i _ _ => Workshop.replyTo_finish location s before i
  · rintro before i rest rfl
    exact Workshop.exists_label _ before i rest
  · refine Workshop.nodup_labels i calls ?_
    have none_yet : ((opened location s).draft i).labels.toNat = 0 := rfl
    rw [none_yet, Nat.zero_add]
    exact labels i
  · refine ⟨fun y => !changesPlumbing debug c y, ?_, fun y hy i m built hm => ?_⟩
    · rw [intercept_after h, sieved, List.findSome?_eq_none_iff.2 resolved]
    · rw [Bool.not_eq_false', changesPlumbing_iff (resolved y hy) hm (built.nodup_handles handles)]

/-! ### Two methods written in turns -/

/-- The call of `hasNext` on an iterator. -/
def askForMore : Step := .invokeInterface "java/util/Iterator" "hasNext" .boolean

/-- A loop whose elements are dropped, and behind it the same call of `hasNext` once more. -/
def loopThenHasNext : List Step :=
  [.newLabel, .newLabel, .invokeInterface "java/util/List" "iterator" (.object iterator), .astore 2, .goto ⟨1⟩,
    .label ⟨0⟩, .aload 2, .invokeInterface "java/util/Iterator" "next" (.object (.ofText "java/lang/Object")), .pop,
    .label ⟨1⟩, .aload 2, askForMore, .branch .ne ⟨0⟩, .aload 2, askForMore, .leave (some .int)]

/-- Two methods of a class `a/B`. -/
def twoMethods : Bool → Location
  | true => methodOfB
  | false => ⟨.ofText "a/B", "n", "()V"⟩

/-- The code is written in both methods at once, each with labels of its own, and then the one is built. -/
def writtenInBoth : List (Workshop.Call Bool) :=
  (loopThenHasNext.flatMap fun step => [.step false step, .step true step]) ++ [.finish true]

/-- The method that is built: every other handle went to the other method. -/
def builtOfBoth : MethodBody :=
  ⟨methodOfB, (loopThenHasNext.filterMap (·.code?)).zipIdx.map fun x => ⟨⟨.ofNat (2 * x.2 + 2)⟩, x.1⟩⟩

/-- The class with this method. -/
def classOfBoth : ClassBody := ⟨.ofText "a/B", [builtOfBoth]⟩

/-- A candidate for each of the two calls of `hasNext`. -/
def bothHasNext : List Candidate :=
  [9, 12].map fun n => ⟨⟨methodOfB, n, "M"⟩, "B.java", "", 0⟩

/-- The second call of `hasNext` in the one method is emitted last but one, and lands at the offset 12.  Of the two
calls the filter drops the first, which the loop has recorded, and keeps the second, which is equal to it. -/
theorem offsets_bothHasNext :
    ((opened twoMethods .full).emissions writtenInBoth).length = 28 ∧
      ((opened twoMethods .full).labels true writtenInBoth) = [⟨0⟩, ⟨1⟩] ∧
      ((opened twoMethods .full).labels true writtenInBoth).Nodup ∧
      (((opened twoMethods .full).emissions writtenInBoth).map (·.instruction.handle)).Nodup ∧
      (∃ e, (opened twoMethods .full).LandsAt (writtenInBoth.take 29) true askForMore (writtenInBoth.drop 30) e 12 ∧
        e.instruction.code = ⟨.invoke .interface, .method ⟨.ofText "java/util/Iterator", "hasNext", .boolean⟩⟩) ∧
      ((after false [.begin classOfBoth]).intercept bothHasNext).value.2 = .ok (bothHasNext.drop 1) ∧
      ∃ keep : Candidate → Bool,
        ((after false [.begin classOfBoth]).intercept bothHasNext).value.2 = .ok (bothHasNext.filter keep) ∧
          ∀ y ∈ bothHasNext,
            (keep y = false ↔ ∃ x : Idiom, x.RecordsAt false builtOfBoth.instructions y.offset) := by
  have labels : ∀ i, ((opened twoMethods .full).labels i writtenInBoth).length < UInt32.size := by
    decide +kernel
  obtain ⟨-, handles, lands, -, -, different, filtering⟩ :=
    handles_tell_offsets twoMethods .full writtenInBoth (by decide +kernel) labels
  have here : ∀ y ∈ bothHasNext, classOfBoth.method? y.location = some builtOfBoth := by
    decide +kernel
  have built : (opened twoMethods .full).Builds writtenInBoth true builtOfBoth :=
    ⟨writtenInBoth.take 32, [], by decide +kernel, by decide +kernel⟩
  have lastButOne : writtenInBoth = writtenInBoth.take 29 ++ .step true askForMore :: writtenInBoth.drop 30 := by
    decide +kernel
  obtain ⟨e, n, landed, spelled⟩ := lands _ _ _ _ _ lastButOne rfl
  have answered : (opened twoMethods .full).replyTo (writtenInBoth.take 29) (.step true askForMore) =
      .answer (.offset 12) := by
    decide +kernel
  obtain rfl : n = 12 := by simpa using landed.reply.symm.trans answered
  obtain ⟨keep, kept, dropped⟩ := filtering false [.begin classOfBoth] classOfBoth rfl bothHasNext (by decide +kernel)
  exact ⟨by decide +kernel, by decide +kernel, different true, handles, ⟨e, landed, spelled⟩, by decide +kernel,
    keep, kept, fun y hy => dropped y hy true builtOfBoth built (here y hy)⟩

end ForEach
end LoopPlumbing
