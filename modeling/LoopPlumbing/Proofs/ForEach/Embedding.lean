/- # Code around a loop

A loop stays a loop when code is put in front of it and behind it, with whatever labels, locals and parts of loops.
The idioms scan and do not look at the cursor, so they find the loop again and record the same instructions
(`mem_recordings_append`).  The whole may have more plumbing than its parts, since a loop may begin in one of them
and end in another.
-/

import LoopPlumbing.Proofs.ForEach.Screen
import LoopPlumbing.Proofs.Sequence.Embedding

namespace LoopPlumbing
namespace ForEach

open Bytecode
open Sequence
open scoped List

/-- What an idiom records in some code it records in longer code. -/
theorem mem_recordings_append {debug : Bool} {code : List Instruction} {x : Idiom} {i : Instruction}
    (h : i ∈ (recordings debug code x).value) (before behind : List Instruction) :
    i ∈ (recordings debug (before ++ code ++ behind) x).value := by
  obtain ⟨d, hd, hi⟩ := List.mem_flatMap.1 h
  have found := value_contexts_sublist (m := x.matcher) rfl x.blind_pattern before code behind
    (Context.start.withDebug debug)
  exact List.mem_flatMap.2 ⟨_, found.mem (List.mem_map_of_mem hd), hi⟩

/-- The plumbing of some code is plumbing in longer code. -/
theorem mem_freshPlumbing_append {debug : Bool} {part : MethodBody} {h : Handle}
    (hh : h ∈ freshPlumbing debug part) (whole : Location) (before behind : List Instruction) :
    h ∈ freshPlumbing debug ⟨whole, before ++ part.instructions ++ behind⟩ := by
  obtain ⟨x, i, hi, rfl⟩ := mem_freshPlumbing_iff.1 hh
  exact mem_freshPlumbing_iff.2 ⟨x, i, mem_recordings_append hi before behind, rfl⟩

/-- **Nothing is lost in a longer stream.**  Let a matcher scan, and let the cursor have no say in its predicates.
Put any tokens in front of a stream and behind it, passed over or not.  Then the contexts that the matcher lists on
the stream, from any context to start from, are among those that it lists on the longer one: the same bindings, the
same recordings and the same flag, in the same order and at least as often, with the cursor at the end of the longer
stream.

So the plumbing of three pieces of code put together contains the plumbing of each. -/
theorem embedding_loses_no_match :
    (∀ (τ ν : Type) (m : Matcher τ ν), m.options.scanAllOffsets = true → m.pattern.Blind →
      ∀ (p s t : List τ) (c : Context τ ν),
        (m.contexts s c).value.map (·.moveTo (p ++ s ++ t).length) <+ (m.contexts (p ++ s ++ t) c).value) ∧
    ∀ (debug : Bool) (whole first second third : Location) (p s t : List Instruction) (h : Handle),
      h ∈ (plumbingOf debug ⟨first, p⟩).value ∨ h ∈ (plumbingOf debug ⟨second, s⟩).value ∨
          h ∈ (plumbingOf debug ⟨third, t⟩).value →
        h ∈ (plumbingOf debug ⟨whole, p ++ s ++ t⟩).value := by
  refine ⟨fun τ ν m scans blind p s t c => value_contexts_sublist scans blind p s t c, ?_⟩
  rintro debug whole first second third p s t h (hp | hs | ht)
  · have found := mem_freshPlumbing_append hp whole [] (s ++ t)
    rwa [List.nil_append, ← List.append_assoc] at found
  · exact mem_freshPlumbing_append hs whole p t
  · have found := mem_freshPlumbing_append ht whole (p ++ s) []
    rwa [List.append_nil] at found

/-- The letters that come next, as many as may be, recorded. -/
def lettersAhead : Pattern Char Char := .star (.token .recording)

/-- In `a_` with dashes passed over, a match may start at the end; in `_xa__b` a dash stands there, and the match is
found further on.  A loop keeps its plumbing between the end and the begin of other loops. -/
theorem embedding_lettersAhead :
    ∃ m : Matcher Char Char, m.pattern = lettersAhead ∧ m.options.scanAllOffsets = true ∧ m.pattern.Blind ∧
      (m.contexts ['a', '_'] .start).value.map (·.recorded) = [[], ['a'], []] ∧
      (m.contexts ['a', '_'] .start).value.map (·.moveTo 6) <+
        (m.contexts (['_', 'x'] ++ ['a', '_'] ++ ['_', 'b']) .start).value ∧
      (plumbingOf false ⟨methodOfB, droppingLoop⟩).value = .ofList [⟨0⟩, ⟨5⟩, ⟨9⟩, ⟨10⟩] ∧
      ∀ h, h ∈ (plumbingOf false ⟨methodOfB, droppingLoop.drop 7⟩).value ∨
          h ∈ (plumbingOf false ⟨methodOfB, droppingLoop⟩).value ∨
          h ∈ (plumbingOf false ⟨methodOfB, droppingLoop.take 7⟩).value →
        h ∈ (plumbingOf false ⟨methodOfB, droppingLoop.drop 7 ++ droppingLoop ++ droppingLoop.take 7⟩).value := by
  let m : Matcher Char Char := ⟨lettersAhead, ⟨.satisfying (· = '_'), true, false⟩, _, rfl⟩
  have blind : m.pattern.Blind := Predicate.Blind.recording
  obtain ⟨matching, plumbing⟩ := embedding_loses_no_match
  have found := matching Char Char m rfl blind ['_', 'x'] ['a', '_'] ['_', 'b'] .start
  have same := plumbing false methodOfB methodOfB methodOfB methodOfB (droppingLoop.drop 7) droppingLoop
    (droppingLoop.take 7)
  exact ⟨m, rfl, rfl, blind, by decide, found, by decide +kernel, same⟩

end ForEach
end LoopPlumbing
