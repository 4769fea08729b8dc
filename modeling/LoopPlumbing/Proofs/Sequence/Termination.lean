/- # Evaluation ends, within the stream

Nothing that a pattern can be keeps evaluation from ending: neither a body that matches nothing, nor repetitions
within repetitions, nor predicates that move the cursor as they like.  What a turn of the loop takes off the stack is
replaced by contexts that are all nearer to the end of the stream, so the stack comes down in the multiset order
(`heights_pushBeyond`) and no loop turns forever, whatever is on its stack (`wellFounded_turn`); and the cursor stays
between where it starts and the end of the stream, since it is set anew behind each token.
-/

import LoopPlumbing.Proofs.Sequence.Evaluation

namespace LoopPlumbing
namespace Sequence

variable {τ ν : Type}

/-- One turn of the loop of a repetition takes the first stack to the second. -/
inductive Turn (ignores : Predicate τ ν) (stream : List τ) (a : Pattern τ ν) :
    List (Context τ ν) → List (Context τ ν) → Prop where
  | round {c : Context τ ν} {pending : List (Context τ ν)} {ends : Logged (Event τ) (List (Context τ ν))}
    (body : Evaluates ignores stream (.pattern a c) ends) :
    Turn ignores stream a (c :: pending) (pushBeyond c.position ends.value pending)

variable {ignores : Predicate τ ν} {stream : List τ}

/-- Where the work on a pattern ends. -/
theorem position_of_evaluates {q : Pattern τ ν} {c : Context τ ν}
    {r : Logged (Event τ) (List (Context τ ν))} (h : Evaluates ignores stream (.pattern q c) r) :
    ∀ d ∈ r.value, c.position ≤ d.position ∧ d.position ≤ max c.position stream.length := by
  rw [eq_outcome_of_evaluates h]
  exact fun d hd => position_le_of_mem_ends q hd

/-- **No loop turns forever.** -/
theorem wellFounded_turn (ignores : Predicate τ ν) (stream : List τ) (a : Pattern τ ν) :
    WellFounded fun after before => Turn ignores stream a before after := by
  refine Subrelation.wf ?_ (InvImage.wf (heights stream) Multiset.wellFounded_isDershowitzMannaLT)
  rintro after before ⟨body⟩
  exact heights_pushBeyond (fun d hd => (position_of_evaluates body d hd).2) _

/-- What a turn pushes lies beyond the context that it takes off the stack, within the stream. -/
theorem pushed_within {a : Pattern τ ν} {c : Context τ ν} {ends : Logged (Event τ) (List (Context τ ν))}
    (body : Evaluates ignores stream (.pattern a c) ends) (pending : List (Context τ ν)) :
    ∃ pushed, pushBeyond c.position ends.value pending = pushed ++ pending ∧
      ∀ d ∈ pushed, c.position < d.position ∧ d.position ≤ stream.length := by
  refine ⟨_, pushBeyond_eq c ends.value pending, fun d hd => ?_⟩
  obtain ⟨hd, hlt⟩ := mem_advances.1 hd
  have := (position_of_evaluates body d hd).2
  exact ⟨hlt, by omega⟩

/-- **Evaluation always ends, within the stream.**  For every pattern, also one that the check rejects, every
stream, every choice of tokens to be passed over and every context to start from, the work on the pattern ends
and can end with one outcome only.  Each context of the outcome lies at the start or beyond it, and no further
than the end of the stream unless the start does.  A loop over the pattern can not turn forever, whatever is on
its stack, and each turn pushes only contexts that lie beyond the one it takes off, within the stream. -/
theorem evaluation_ends_within (ignores : Predicate τ ν) (stream : List τ) (q : Pattern τ ν)
    (c : Context τ ν) :
    (∃ r, (∀ r', Evaluates ignores stream (.pattern q c) r' ↔ r' = r) ∧ r = q.ends ignores stream c ∧
      (∀ d ∈ r.value, c.position ≤ d.position ∧ d.position ≤ max c.position stream.length) ∧
      ∀ pending, ∃ pushed, pushBeyond c.position r.value pending = pushed ++ pending ∧
        ∀ d ∈ pushed, c.position < d.position ∧ d.position ≤ stream.length) ∧
    WellFounded fun after before => Turn ignores stream q before after := by
  have ended : Evaluates ignores stream (.pattern q c) (q.ends ignores stream c) := evaluates_iff.2 rfl
  refine ⟨⟨_, fun _ => evaluates_iff, rfl, position_of_evaluates ended, fun pending => ?_⟩, ?_⟩
  · exact pushed_within ended pending
  · exact wellFounded_turn ignores stream q

/-- Rounds of rounds of a letter, with a predicate that sends the cursor far away. -/
example :
    ((Pattern.star (.star (.token (.ofStep fun c _ => some (c.moveTo 7))))).ends
      (.never : Predicate Char Char) ['a', 'b'] .start).value.map (·.position) = [0, 2, 1, 2] := by
  decide

end Sequence
end LoopPlumbing
