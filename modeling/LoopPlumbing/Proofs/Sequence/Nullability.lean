/- # Nullability is exact

Whether a pattern can match nothing is read off its shape.  The engine bears this out in both directions,
whatever the predicates do: a nullable pattern ends, among others, in the very context in which it starts
(`mem_ends_of_nullable`), and every end of any other pattern lies beyond the start
(`position_lt_of_mem_ends`), so that in a stream without tokens it has none.

The check asks of each repetition, at any depth, that its body is not nullable
(`nullable_eq_false_of_repeats`).  So every end of a round advances, and the engine's test for this drops
nothing.
-/

import LoopPlumbing.Proofs.Sequence.Evaluation
import LoopPlumbing.Proofs.Sequence.ExactCheck

namespace LoopPlumbing
namespace Sequence
namespace Pattern

variable {τ ν : Type} {ignores : Predicate τ ν} {stream : List τ} {c : Context τ ν}

/-- **A nullable pattern can end where it starts**, with nothing changed. -/
theorem mem_ends_of_nullable {q : Pattern τ ν} (hq : q.nullable = true) :
    c ∈ (q.ends ignores stream c).value := by
  induction q with
  | token p => cases hq
  | seq a b iha ihb =>
      rw [nullable, Bool.and_eq_true] at hq
      rw [value_ends_seq, List.mem_flatMap]
      exact ⟨c, iha hq.1, ihb hq.2⟩
  | alt a b iha ihb =>
      rw [nullable, Bool.or_eq_true] at hq
      rw [value_ends_alt, List.mem_append]
      exact hq.imp iha ihb
  | star a =>
      rw [value_ends_star_eq]
      exact List.mem_cons_self

/-- Where there are no tokens, a pattern that is not nullable has no end. -/
theorem value_ends_nil {q : Pattern τ ν} (hq : q.nullable = false) :
    (q.ends ignores [] c).value = [] := by
  refine List.eq_nil_iff_forall_not_mem.2 fun d hd => ?_
  have beyond := position_lt_of_mem_ends hq hd
  have within := (position_le_of_mem_ends q hd).2
  rw [List.length_nil, Nat.max_zero] at within
  omega

/-- In an accepted pattern nothing that is repeated, at any depth, is nullable. -/
theorem nullable_eq_false_of_repeats {q body : Pattern τ ν} {bound after : List Slot}
    (h : q.check bound = .ok after) (repeated : q.Repeats body) : body.nullable = false := by
  have consumes := roundsConsume_iff.1 (roundsConsume_of_check h) body repeated
  rwa [nil_mem_language_iff, Bool.not_eq_true] at consumes

/-- **Nullability is exact, so no end of a round is dropped.**  For every pattern, stream, choice of tokens to
be passed over and context to start from: the pattern is nullable exactly if this context itself is one of its
ends, and it is not nullable exactly if every end lies beyond the start, and exactly if it has no end in a
stream without tokens.  Wherever a compiled pattern repeats a body, at any depth, a round of it from any context
ends with contexts that all lie beyond that one: the filter keeps each of them, the loop pushes each of them, and
the repetition unfolds as it would without the filter. -/
theorem nullable_exact (q : Pattern τ ν) (ignores : Predicate τ ν) (stream : List τ) (c : Context τ ν) :
    (c ∈ (q.ends ignores stream c).value ↔ q.nullable = true) ∧
    ((∀ d ∈ (q.ends ignores stream c).value, c.position < d.position) ↔ q.nullable = false) ∧
    ((q.ends ignores [] c).value = [] ↔ q.nullable = false) ∧
    ∀ options m, q.compile options = .ok m → ∀ body, q.Repeats body → ∀ round,
      Evaluates options.ignores stream (.pattern body c) round →
        round.value.filter (c.position < ·.position) = round.value ∧
        (∀ pending, pushBeyond c.position round.value pending = round.value.reverse ++ pending) ∧
        (body.star.ends options.ignores stream c).value =
          c :: round.value.reverse.flatMap fun d => (body.star.ends options.ignores stream d).value := by
  refine ⟨⟨fun h => ?_, mem_ends_of_nullable⟩, ⟨fun h => ?_, fun hq _ => position_lt_of_mem_ends hq⟩,
    ⟨fun h => ?_, value_ends_nil⟩, fun options m hm body repeated round hround => ?_⟩
  · by_contra hq
    exact Nat.lt_irrefl _ (position_lt_of_mem_ends (Bool.eq_false_iff.2 hq) h)
  · refine Bool.eq_false_iff.2 fun hq => ?_
    exact Nat.lt_irrefl _ (h c (mem_ends_of_nullable hq))
  · refine Bool.eq_false_iff.2 fun hq => ?_
    exact List.not_mem_nil (h ▸ mem_ends_of_nullable hq)
  · obtain ⟨bound, checked⟩ := exists_compile_eq_ok.1 ⟨m, hm⟩
    have consumes := nullable_eq_false_of_repeats checked repeated
    have all : advances c round.value = round.value.reverse := by
      rw [eq_outcome_of_evaluates hround]
      exact advances_eq_reverse consumes
    refine ⟨?_, fun pending => ?_, ?_⟩
    · exact List.reverse_injective all
    · rw [pushBeyond_eq, all]
    · rw [value_ends_star_eq, ← all, eq_outcome_of_evaluates hround]
      rfl

/-- A letter and then any number of letters, any number of times. -/
def lettersInLetters : Pattern Char Char := star (any.thenStar any)

/-- The pattern compiles with a repetition inside another; from the start of `ab` the outer body ends behind
`a` and behind `ab`, and both are kept. -/
theorem nullable_exact_lettersInLetters :
    ∃ m, lettersInLetters.compile ⟨.never, false, false⟩ = .ok m ∧
      lettersInLetters.Repeats (any.thenStar any) ∧
      ∃ (c : Context Char Char) (round : Logged (Event Char) (List (Context Char Char))),
        Evaluates .never ['a', 'b'] (.pattern (any.thenStar any) c) round ∧
        round.value.map (·.position) = [1, 2] ∧
        round.value.filter (c.position < ·.position) = round.value ∧
        (∀ pending, pushBeyond c.position round.value pending = round.value.reverse ++ pending) ∧
        (lettersInLetters.ends .never ['a', 'b'] c).value =
          c :: round.value.reverse.flatMap fun d => (lettersInLetters.ends .never ['a', 'b'] d).value := by
  have round : Evaluates .never ['a', 'b'] (.pattern ((any : Pattern Char Char).thenStar any) .start) _ :=
    evaluates_iff.2 rfl
  obtain ⟨-, -, -, kept⟩ := nullable_exact lettersInLetters .never ['a', 'b'] .start
  exact ⟨⟨lettersInLetters, ⟨.never, false, false⟩, _, rfl⟩, rfl, .inl rfl, .start, _, round, by decide,
    kept ⟨.never, false, false⟩ _ rfl _ (.inl rfl) _ round⟩

end Pattern
end Sequence
end LoopPlumbing
