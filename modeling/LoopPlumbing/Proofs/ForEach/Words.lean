/- # A word, any instructions, a word

An idiom is a word of shapes, any number of instructions, and another word.  In a stream in which nothing is
passed over it is found from a position at which the first word is followed, once for each position behind it at
which the second word is followed in the same sense of the names (`enumerates_ends_words`).  A scan finds it from
every position (`enumerates_scan_of_ends`).

Two ends that record the same are listed twice, so the index of an end is the position behind which the second word
begins.  The sense of the names need not be part of the index: the tokens that fit settle it.
-/

import LoopPlumbing.ForEach.Idiom
import LoopPlumbing.Proofs.Enumeration
import LoopPlumbing.Proofs.Sequence.Clue

namespace LoopPlumbing
namespace ForEach

open Bytecode
open Sequence

variable {α : Type} {ignores : Shape} {stream : List Instruction}

/-- A word leads where its first shape and then its other shapes lead. -/
theorem toList_walk_cons (p : Shape) (shapes : List Shape) (c : Context Instruction Captured) :
    (walk ignores stream (p :: shapes) c).toList =
      (walk ignores stream [p] c).toList.flatMap fun d => (walk ignores stream shapes d).toList := by
  have split : p :: shapes = [p] ++ shapes := rfl
  rw [split, walk_append, Option.toList_bind]
  rfl

/-- What follows a pattern is a word. -/
theorem value_ends_followedBy (q : Pattern Instruction Captured) (shapes : List Shape)
    (c : Context Instruction Captured) :
    ((followedBy q shapes).ends ignores stream c).value =
      (q.ends ignores stream c).value.flatMap fun d => (walk ignores stream shapes d).toList := by
  induction shapes generalizing q with
  | nil => exact (List.flatMap_singleton' _).symm
  | cons p shapes ih =>
      have step : followedBy q (p :: shapes) = followedBy (q.thenToken p) shapes := rfl
      rw [step, ih, Pattern.thenToken, value_ends_seq, List.flatMap_assoc]
      refine List.flatMap_congr fun d _ => ?_
      rw [value_ends_token, value_tokenEnds, toList_walk_cons p shapes]

/-- The ends of an idiom: from where the first word leads, any position behind it, and from there where the
second word leads. -/
theorem value_ends_words (plain : Plain ignores stream) (first : Shape) (header footer : List Shape)
    (c : Context Instruction Captured) :
    ((followedBy ((followedBy (.token first) header).thenStar body) footer).ends ignores stream c).value =
      ((walk ignores stream (first :: header) c).toList.flatMap fun d =>
        (List.range' d.position (stream.length - d.position + 1)).map d.moveTo).flatMap fun e =>
          (walk ignores stream footer e).toList := by
  rw [value_ends_followedBy, Pattern.thenStar, value_ends_seq, value_ends_followedBy, value_ends_token,
    value_tokenEnds, toList_walk_cons first header]
  refine congrArg (List.flatMap _) (List.flatMap_congr fun d _ => ?_)
  exact plain.value_ends_star_always d

/-- **A word, any tokens, a word:** behind a word that is followed from one position on, one match for each position
at which the other word follows its clues, in one sense of the names. -/
theorem enumerates_ends_words (plain : Plain ignores stream) {first : Shape}
    {header footer : List Shape} {before after : List (Clue α Instruction)}
    {middle bindings : α → List (ℕ × Captured)}
    (hh : TellsAll (fun _ => []) (first :: header) before middle)
    (hf : TellsAll middle footer after bindings) (hne : after ≠ []) (a₀ : α) (debug : Bool) (i : ℕ) :
    Enumerates
      (fun (j : ℕ) (r : List Instruction) =>
        (i + before.length ≤ j ∧ ∃ a, Row stream i (asks before a) ∧ Row stream j (asks after a)) ∧
        r.map some = (marks before i ++ marks after j).map (stream[·]?))
      (((followedBy ((followedBy (.token first) header).thenStar body) footer).ends ignores stream
        ⟨i, [], [], debug⟩).value.map (·.recorded)) := by
  have heads := Enumerates.toList () (walk ignores stream (first :: header) ⟨i, [], [], debug⟩)
  have gaps : ∀ d : Context Instruction Captured, Enumerates
      (fun j e => j ∈ List.range' d.position (stream.length - d.position + 1) ∧ e = d.moveTo j)
      ((List.range' d.position (stream.length - d.position + 1)).map d.moveTo) := by
    intro d
    refine ((Enumerates.of_nodup List.nodup_range').map d.moveTo).congr fun j e => ?_
    constructor
    · rintro ⟨j', ⟨hj, rfl⟩, he⟩
      exact ⟨hj, he⟩
    · rintro ⟨hj, he⟩
      exact ⟨j, ⟨hj, rfl⟩, he⟩
  have tails := (heads.bind fun d _ => gaps d).optional fun e => walk ignores stream footer e
  have positions : Function.Injective (Prod.snd : Unit × ℕ → ℕ) := fun _ _ e => Prod.ext rfl e
  have found := (tails.map (·.recorded)).reindex positions
  rw [value_ends_words plain]
  refine found.congr fun j r => ?_
  constructor
  · rintro ⟨_, ⟨e, ⟨_, ⟨d, ⟨-, hd⟩, hj, rfl⟩, he⟩, rfl⟩, rfl⟩
    obtain ⟨a, -, row, new, hnew, rfl⟩ := (hh.walk_eq_some_iff plain (a := a₀)).1 hd
    obtain ⟨a', same, row', new', hnew', rfl⟩ := (hf.walk_eq_some_iff plain).1 he
    refine ⟨⟨(List.mem_range'_1.1 hj).1, a', (hh.settled same).2 _ row, row'⟩, ?_⟩
    rw [List.nil_append, List.map_append, List.map_append, hnew, hnew']
  · rintro ⟨⟨hle, a, row, row'⟩, hr⟩
    rw [List.map_append] at hr
    obtain ⟨new, new', rfl, hnew, hnew'⟩ := List.map_eq_append_iff.1 hr
    have hj : j < stream.length := row'.lt_length (by simpa [asks] using hne)
    have head : walk ignores stream (first :: header) ⟨i, [], [], debug⟩ =
        some ⟨i + before.length, middle a, new, debug⟩ :=
      (hh.walk_eq_some_iff plain (a := a₀)).2 ⟨a, rfl, row, new, hnew, rfl⟩
    have tail : walk ignores stream footer ⟨j, middle a, new, debug⟩ =
        some ⟨j + after.length, bindings a, new ++ new', debug⟩ :=
      (hf.walk_eq_some_iff plain).2 ⟨a, rfl, row', new', hnew', rfl⟩
    have inside : j < i + before.length + (stream.length - (i + before.length) + 1) := by omega
    exact ⟨((), j), ⟨_, ⟨_, ⟨_, ⟨rfl, head⟩, List.mem_range'_1.2 ⟨hle, inside⟩, rfl⟩, tail⟩, rfl⟩, rfl⟩

/-- What is recorded from each position is recorded by a scan, if nothing is recorded from a position at which the
stream has ended. -/
theorem enumerates_scan_of_ends (plain : Plain ignores stream) {q : Pattern Instruction Captured} {debug : Bool}
    {R : ℕ × ℕ → List Instruction → Prop}
    (each : ∀ i, Enumerates (fun j => R (i, j)) ((q.ends ignores stream ⟨i, [], [], debug⟩).value.map (·.recorded)))
    (inside : ∀ i j r, R (i, j) r → i < stream.length) :
    Enumerates R ((q.scan ignores stream (Context.start.withDebug debug)).value.map (·.recorded)) := by
  have found := (Enumerates.of_nodup (List.nodup_range (n := stream.length + 1))).bind fun i _ => each i
  rw [value_scan, plain.starts_eq, List.map_flatMap]
  simp only [List.map_map]
  refine found.congr fun ⟨i, j⟩ r => ?_
  constructor
  · rintro ⟨_, ⟨-, rfl⟩, hr⟩
    exact hr
  · exact fun hr => ⟨i, ⟨List.mem_range.2 ((inside i j r hr).trans (Nat.lt_succ_self _)), rfl⟩, hr⟩

end ForEach
end LoopPlumbing
