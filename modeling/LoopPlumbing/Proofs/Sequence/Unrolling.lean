/- # At least one round

A repetition with at least one round may be written with the round in front of the repetition or behind it.  The
engine unfolds a repetition in front, so a round in front is its own first round, while a round behind is tried
from every context in which any number of rounds has ended.  Both end in the same contexts, each as often
(`perm_flatMap_star`), by induction on the rounds: behind the first round, what is left is the same statement.
Bindings are part of the contexts that are threaded through, so slots that can be bound only once need no thought.

That a round moves the cursor is all that is asked.  A round that ends where it started would be tried once in front
and never in a repetition.
-/

import LoopPlumbing.Proofs.Sequence.Progress
import Mathlib.Data.List.Perm.Basic

namespace LoopPlumbing
namespace Sequence

open scoped List

variable {τ ν : Type} {ignores : Predicate τ ν} {stream : List τ}

/-- **A round may change places with any number of rounds.** -/
theorem perm_flatMap_star {q : Pattern τ ν} (hq : q.nullable = false) (c : Context τ ν) :
    ((q.ends ignores stream c).value.flatMap fun d => (q.star.ends ignores stream d).value) ~
      (q.star.ends ignores stream c).value.flatMap fun d => (q.ends ignores stream d).value := by
  induction c using star_induction ignores stream q with
  | step c behind =>
      let round := fun d => (q.ends ignores stream d).value
      let rounds := fun d => (q.star.ends ignores stream d).value
      have unfolded : ∀ d, rounds d = d :: (round d).reverse.flatMap rounds := fun d => by
        rw [← advances_eq_reverse hq]
        exact value_ends_star_eq q
      rw [advances_eq_reverse hq] at behind
      calc (round c).flatMap rounds
        _ ~ (round c).flatMap fun d => [d] ++ (round d).flatMap rounds := by
            refine List.Perm.flatMap_left _ fun d _ => ?_
            rw [unfolded]
            exact ((List.reverse_perm _).flatMap_right _).cons d
        _ ~ round c ++ (round c).flatMap fun d => (round d).flatMap rounds := by
            refine (List.flatMap_append_perm _ _ _).symm.trans (.of_eq ?_)
            rw [List.flatMap_singleton']
        _ ~ round c ++ (round c).reverse.flatMap fun d => (rounds d).flatMap round :=
            ((List.reverse_perm _).symm.flatMap fun d hd => behind d (List.mem_reverse.2 hd)).append_left _
        _ = (rounds c).flatMap round := by
            rw [unfolded c, List.flatMap_cons, List.flatMap_assoc]

/-- **At least one round, unrolled at either end.**  Let a pattern be one that can not match nothing; what is repeated
inside it is free.  From every context, on every stream, the pattern and then any number of rounds of it ends in the
same contexts as any number of rounds and then the pattern, each as often, though perhaps in another order.  So does
what is written to have at least one round behind another pattern. -/
theorem unrolled_at_either_end {q : Pattern τ ν} (hq : q.nullable = false) (ignores : Predicate τ ν)
    (stream : List τ) (c : Context τ ν) :
    ((q.seq q.star).ends ignores stream c).value ~ ((q.star.seq q).ends ignores stream c).value ∧
    ∀ a : Pattern τ ν, ((a.thenPlus q).ends ignores stream c).value ~
      (((a.thenStar q).seq q).ends ignores stream c).value := by
  refine ⟨?_, fun a => ?_⟩
  · rw [value_ends_seq, value_ends_seq]
    exact perm_flatMap_star hq c
  · simp only [Pattern.thenPlus, Pattern.thenStar, value_ends_seq, List.flatMap_assoc]
    exact List.Perm.flatMap_left _ fun d _ => perm_flatMap_star hq d

/-- A letter that is captured, or one that is recorded. -/
def capturedOrRecorded : Pattern Char Char :=
  .alt (.token (.capture ⟨0, "letter"⟩ some)) (.token .recording)

/-- In `ab` at most one letter is captured, in either order of the rounds; the contexts come in different orders. -/
theorem unrolled_capturedOrRecorded :
    capturedOrRecorded.nullable = false ∧
      ((capturedOrRecorded.seq capturedOrRecorded.star).ends .never ['a', 'b'] .start).value ~
        ((capturedOrRecorded.star.seq capturedOrRecorded).ends .never ['a', 'b'] .start).value ∧
      ((capturedOrRecorded.seq capturedOrRecorded.star).ends .never ['a', 'b'] .start).value =
        [⟨1, [(0, 'a')], [], false⟩, ⟨2, [(0, 'a')], ['b'], false⟩, ⟨1, [], ['a'], false⟩,
          ⟨2, [], ['a', 'b'], false⟩, ⟨2, [(0, 'b')], ['a'], false⟩] ∧
      ((capturedOrRecorded.star.seq capturedOrRecorded).ends .never ['a', 'b'] .start).value =
        [⟨1, [(0, 'a')], [], false⟩, ⟨1, [], ['a'], false⟩, ⟨2, [(0, 'b')], ['a'], false⟩,
          ⟨2, [], ['a', 'b'], false⟩, ⟨2, [(0, 'a')], ['b'], false⟩] :=
  ⟨rfl, (unrolled_at_either_end rfl .never ['a', 'b'] .start).1, by decide, by decide⟩

end Sequence
end LoopPlumbing
