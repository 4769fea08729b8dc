/- # A traced filter gives the same answers

The shapes that the idioms are made of have no regard to the flag of a context (`oblivious_of_mem_pattern`), so an
idiom records the same traced or not, and the plumbing of a method is the same set of handles
(`freshPlumbing_traced`).  What a filter gives back and how many methods it remembers hang on the plumbing alone,
whatever calls were made before.

The reports of tested tokens may be deleted in two ways.  By who reports, nothing else is deleted, whatever the
predicate that decides what is passed over may report; by the wording, its reports go too if they are worded alike.
Both are stated, the second one under the condition that they are not (`IgnoresSilently`).
-/

import LoopPlumbing.Proofs.ForEach.Annotations
import LoopPlumbing.Proofs.ForEach.Vocabulary
import LoopPlumbing.Proofs.Sequence.Tracing

namespace LoopPlumbing
namespace ForEach

open Bytecode
open Sequence

/-- **No shape of an idiom has regard to the flag.** -/
theorem Idiom.oblivious_of_mem_pattern (x : Idiom) : ∀ p ∈ x.pattern.predicates, p.Oblivious := by
  obtain ⟨g, hg⟩ := x.exists_grammar
  rw [← hg]
  exact g.oblivious

/-- An idiom records the same traced or not. -/
theorem value_recordings_traced (debug : Bool) (code : List Instruction) (x : Idiom) :
    (recordings debug code x).value = (recordings false code x).value := by
  have shapes : ∀ p ∈ x.matcher.pattern.predicates, p.Oblivious := x.oblivious_of_mem_pattern
  have found := (tracesOnly_contexts shapes code Context.start).value_eq debug
  have recorded := congrArg (List.flatMap (·.recorded)) found
  rw [List.flatMap_map] at recorded
  exact recorded

/-- **The plumbing of a method is the same traced or not.** -/
theorem freshPlumbing_traced (debug : Bool) : freshPlumbing debug = freshPlumbing false := by
  funext m
  rw [freshPlumbing_eq, freshPlumbing_eq]
  simp only [value_recordings_traced debug]

/-- What a call has to give back does not depend on tracing. -/
theorem answer_traced (debug : Bool) : answer debug = answer false := by
  funext current call
  cases call <;> cases current <;>
    simp only [answer, sieved, changesPlumbing, freshPlumbing_traced debug]

/-- **Tracing does not interfere.**  Take any pattern made of the vocabulary that compiles, under any options, and ask
for a trace by the options, by the context to start from, or by both.  On every stream the search lists the contexts
that it lists without a trace, one by one, but for their flags; and it reports what it reports without a trace, with
reports of tested tokens put in.  What is left after deleting those reports is exactly what is reported without a trace,
in order, each report with the token that it is about.

The predicate that decides what is passed over may be any at all, and report what it likes; what it reports is not what
is deleted.  Only if one deletes by the wording must it not word a report as matching does, which no formula does
(`Predicate.Oblivious.ignoresSilently`).

A filter that traces and one that does not give back the same, faults included, and remember as many methods,
whatever calls are made. -/
theorem tracing_does_not_interfere :
    (∀ (τ ν : Type) [BEq ν] (g : Grammar τ ν) (options : Options τ ν) (m : Matcher τ ν),
      (g.pattern .equalsBound).compile options = .ok m →
      ∀ (stream : List τ) (c : Context τ ν) (byOptions byContext : Bool),
        (g.pattern .equalsBound).compile { options with debug := byOptions } =
            .ok (m.withDebug byOptions) ∧
          ((m.withDebug byOptions).contexts stream (c.withDebug byContext)).value =
            ((m.withDebug false).contexts stream (c.withDebug false)).value.map
              (·.withDebug (byOptions || byContext)) ∧
          Traced ((m.withDebug false).contexts stream (c.withDebug false)).events
            ((m.withDebug byOptions).contexts stream (c.withDebug byContext)).events ∧
          ((m.withDebug byOptions).contexts stream (c.withDebug byContext)).events.filter
              (!·.isTokenTest) =
            ((m.withDebug false).contexts stream (c.withDebug false)).events ∧
          (IgnoresSilently options.ignores →
            ((m.withDebug byOptions).contexts stream (c.withDebug byContext)).events.filter
                (·.message ≠ "sequence token") =
              ((m.withDebug false).contexts stream (c.withDebug false)).events)) ∧
    ∀ (past : List Call) (call : Call),
      ((after true past).handle call).value.2 = ((after false past).handle call).value.2 ∧
        (after true past).cachedMethods = (after false past).cachedMethods := by
  constructor
  · intro τ ν _ g options m h stream c byOptions byContext
    obtain ⟨pattern, rfl⟩ := Pattern.compile_eq_ok.1 h
    have formulas : ∀ p ∈ m.pattern.predicates, p.Oblivious := pattern ▸ g.oblivious
    refine ⟨Pattern.compile_eq_ok.2 ⟨pattern, rfl⟩, ?_⟩
    exact contexts_traced formulas stream c byOptions byContext
  · intro past call
    rw [after_eq, after_eq, value_handle, value_handle]
    refine ⟨congrFun₂ (answer_traced true) _ _, ?_⟩
    simp only [Filter.cachedMethods, memory, List.length_map]

/-- A letter, anything, and the letter again, with a report of the first. -/
def reportedLetter : Grammar Char Char :=
  .seq (.seq (.token (.and (.capture ⟨0, "letter"⟩ some) (.checkpoint "letter"))) (.star (.token .always)))
    (.token (.and (.equalsBound ⟨0, "letter"⟩ some) .recording))

/-- Blanks are passed over, with a report of each. -/
def reportedBlank : Formula Char Char := .and (.satisfying (· = ' ')) (.checkpoint "blank")

/-- Blanks are passed over, by a predicate that reports every token that it tests, as matching does. -/
def noisyBlank : Predicate Char Char :=
  .ofTest fun c t => ⟨if t = ' ' then some c else none, [.tokenTested c.position t (t = ' ')]⟩

/-- In `a b a` the traced search lists the one context that the other lists, and reports five tested tokens more,
whether blanks are passed over in other words than those of matching or in the same; and the plumbing of a loop is the
same from a filter that traces. -/
theorem tracing_reportedLetter :
    ∃ m m', (reportedLetter.pattern .equalsBound).compile
        ⟨reportedBlank.predicate .equalsBound, false, false⟩ = .ok m ∧
      IgnoresSilently (reportedBlank.predicate .equalsBound) ∧
      ((m.withDebug false).contexts ['a', ' ', 'b', ' ', 'a'] .start).value.length = 1 ∧
      ((m.withDebug true).contexts ['a', ' ', 'b', ' ', 'a'] .start).value =
        ((m.withDebug false).contexts ['a', ' ', 'b', ' ', 'a'] .start).value.map (·.withDebug true) ∧
      ((m.withDebug false).contexts ['a', ' ', 'b', ' ', 'a'] .start).events.length = 5 ∧
      ((m.withDebug true).contexts ['a', ' ', 'b', ' ', 'a'] .start).events.length = 10 ∧
      ((m.withDebug true).contexts ['a', ' ', 'b', ' ', 'a'] .start).events.filter
          (·.message ≠ "sequence token") =
        ((m.withDebug false).contexts ['a', ' ', 'b', ' ', 'a'] .start).events ∧
      (reportedLetter.pattern .equalsBound).compile ⟨noisyBlank, false, false⟩ = .ok m' ∧
      ((m'.withDebug true).contexts ['a', ' ', 'b', ' ', 'a'] .start).events.length =
        ((m'.withDebug false).contexts ['a', ' ', 'b', ' ', 'a'] .start).events.length + 5 ∧
      ((m'.withDebug true).contexts ['a', ' ', 'b', ' ', 'a'] .start).events.filter (!·.isTokenTest) =
        ((m'.withDebug false).contexts ['a', ' ', 'b', ' ', 'a'] .start).events ∧
      ((after true [.begin (classWith droppingLoop)]).handle (.plumbingFor methodOfB)).value.2 =
        ((after false [.begin (classWith droppingLoop)]).handle (.plumbingFor methodOfB)).value.2 := by
  have silent : IgnoresSilently (reportedBlank.predicate .equalsBound) := reportedBlank.oblivious.ignoresSilently
  let m : Matcher Char Char :=
    ⟨reportedLetter.pattern .equalsBound, ⟨reportedBlank.predicate .equalsBound, false, false⟩, _, rfl⟩
  let m' : Matcher Char Char := ⟨reportedLetter.pattern .equalsBound, ⟨noisyBlank, false, false⟩, _, rfl⟩
  obtain ⟨matching, filtering⟩ := tracing_does_not_interfere
  obtain ⟨-, found, -, -, reports⟩ := matching Char Char reportedLetter m.options m rfl
    ['a', ' ', 'b', ' ', 'a'] .start true false
  obtain ⟨-, -, -, reports', -⟩ := matching Char Char reportedLetter m'.options m' rfl
    ['a', ' ', 'b', ' ', 'a'] .start true false
  exact ⟨m, m', rfl, silent, by decide, found, by decide, by decide, reports silent, rfl, by decide, reports',
    (filtering _ _).1⟩

end ForEach
end LoopPlumbing
