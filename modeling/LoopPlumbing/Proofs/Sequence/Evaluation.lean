/- # Evaluation without a bound

`Pattern.ends` bounds the rounds of a repetition by the tokens that are left.  Here evaluation is told with no
bound, as work that may or may not come to an end: `Evaluates` relates a task to the outcome with which the work
on it ends.  A repetition is a loop over a stack.  It takes the context on top, evaluates the body from it, puts
the ends of that round that lie beyond it on the stack one by one, and lists the context behind those listed
before; so the stack holds contexts that different rounds have led to.

The work on a task can end in one way only, the one that `Pattern.ends` tells (`eq_outcome_of_evaluates`), and it
does end (`evaluates_iff`).  For a loop the first is the unfolding of a repetition, reports included
(`ends_star_eq`), carried over the whole stack.  For the second the stack has to run empty although it may grow
at every turn: each turn replaces one context by contexts that have fewer tokens ahead (`heights_pushBeyond`),
and such replacements come to an end.
-/

import LoopPlumbing.Proofs.Sequence.Progress
import Mathlib.Data.Multiset.DershowitzManna

namespace LoopPlumbing
namespace Sequence

variable {τ ν : Type}

/-! ### Tasks and their evaluation -/

/-- Work for an evaluator. -/
inductive Task (τ ν : Type) where
  /-- A pattern, from one context. -/
  | pattern (q : Pattern τ ν) (c : Context τ ν)
  /-- A pattern, from each of some contexts in turn. -/
  | each (q : Pattern τ ν) (cs : List (Context τ ν))
  /-- The loop of a repetition: the contexts from which a round is still to be tried, as a stack with the top
  first, and those listed so far. -/
  | loop (body : Pattern τ ν) (pending found : List (Context τ ν))

/-- The stack when the contexts that lie beyond a position have been put on it one by one. -/
def pushBeyond (position : ℕ) (ends pending : List (Context τ ν)) : List (Context τ ν) :=
  (ends.filter (position < ·.position)).foldl (fun stack d => d :: stack) pending

/-- The work on a task comes to an end with an outcome. -/
inductive Evaluates (ignores : Predicate τ ν) (stream : List τ) :
    Task τ ν → Logged (Event τ) (List (Context τ ν)) → Prop where
  | token {p : Predicate τ ν} {c : Context τ ν} :
    Evaluates ignores stream (.pattern (.token p) c) (tokenEnds ignores stream p c)
  | seq {a b : Pattern τ ν} {c : Context τ ν} {middle ends : Logged (Event τ) (List (Context τ ν))}
    (first : Evaluates ignores stream (.pattern a c) middle)
    (second : Evaluates ignores stream (.each b middle.value) ends) :
    Evaluates ignores stream (.pattern (.seq a b) c) ⟨ends.value, middle.events ++ ends.events⟩
  | alt {a b : Pattern τ ν} {c : Context τ ν} {left right : Logged (Event τ) (List (Context τ ν))}
    (first : Evaluates ignores stream (.pattern a c) left)
    (second : Evaluates ignores stream (.pattern b c) right) :
    Evaluates ignores stream (.pattern (.alt a b) c)
      ⟨left.value ++ right.value, left.events ++ right.events⟩
  | star {a : Pattern τ ν} {c : Context τ ν} {ends : Logged (Event τ) (List (Context τ ν))}
    (loop : Evaluates ignores stream (.loop a [c] []) ends) :
    Evaluates ignores stream (.pattern (.star a) c) ends
  /-- No context is left to start from. -/
  | eachNil {q : Pattern τ ν} : Evaluates ignores stream (.each q []) ⟨[], []⟩
  | eachCons {q : Pattern τ ν} {c : Context τ ν} {cs : List (Context τ ν)}
    {first rest : Logged (Event τ) (List (Context τ ν))}
    (head : Evaluates ignores stream (.pattern q c) first)
    (tail : Evaluates ignores stream (.each q cs) rest) :
    Evaluates ignores stream (.each q (c :: cs))
      ⟨first.value ++ rest.value, first.events ++ rest.events⟩
  /-- The stack is empty. -/
  | loopEmpty {a : Pattern τ ν} {found : List (Context τ ν)} :
    Evaluates ignores stream (.loop a [] found) ⟨found, []⟩
  /-- One turn: a round from the context on top of the stack. -/
  | loopTurn {a : Pattern τ ν} {c : Context τ ν} {pending found : List (Context τ ν)}
    {round ends : Logged (Event τ) (List (Context τ ν))}
    (body : Evaluates ignores stream (.pattern a c) round)
    (turns : Evaluates ignores stream
      (.loop a (pushBeyond c.position round.value pending) (found ++ [c])) ends) :
    Evaluates ignores stream (.loop a (c :: pending) found) ⟨ends.value, round.events ++ ends.events⟩

/-- What the work on a task has to come to. -/
def Task.outcome (ignores : Predicate τ ν) (stream : List τ) :
    Task τ ν → Logged (Event τ) (List (Context τ ν))
  | pattern q c => q.ends ignores stream c
  | each q cs => Logged.gather cs (q.ends ignores stream)
  | loop a pending found => (found ++ ·) <$> Logged.gather pending (a.star.ends ignores stream)

/-! ### Unfolding a repetition

A repetition from one context is that context followed by the repetitions from the ends that go beyond it.  The loop
takes these ends from a stack.
-/

section Unfolding

variable {body : Context τ ν → Logged (Event τ) (List (Context τ ν))} {c : Context τ ν}

/-- The number of rounds allowed does not matter for the reports either, as long as a round may be tried
wherever a round leads. -/
theorem rounds_eq_of_lt {limit : ℕ}
    (hbody : ∀ c, ∀ e ∈ (body c).value, e.position ≤ max c.position limit) {n n' : ℕ}
    (h : limit - c.position < n) (h' : limit - c.position < n') : rounds body n c = rounds body n' c := by
  have closer : ∀ {c d : Context τ ν} {n : ℕ}, limit - c.position < n + 1 →
      d ∈ advances c (body c).value → limit - d.position < n := by
    intro c d n h hd
    obtain ⟨hd, hlt⟩ := mem_advances.1 hd
    have := hbody c d hd
    omega
  induction n generalizing c n' with
  | zero => omega
  | succ n ih =>
      cases n' with
      | zero => omega
      | succ n' =>
          rw [rounds, rounds]
          refine Logged.bind_congr_value (congrArg _ (Logged.gather_congr fun d hd => ?_))
          exact ih (closer h hd) (closer h' hd)

/-- **A repetition is its unfolding, reports included:** the context itself, then what the repetition gives from
each context that one round advances to, from the last to the first. -/
theorem ends_star_eq (ignores : Predicate τ ν) (stream : List τ) (a : Pattern τ ν) (c : Context τ ν) :
    a.star.ends ignores stream c = (do
      let round ← a.ends ignores stream c
      (c :: ·) <$> Logged.gather (advances c round) (a.star.ends ignores stream)) := by
  have within : ∀ c, ∀ e ∈ (a.ends ignores stream c).value, e.position ≤ max c.position stream.length :=
    fun c e he => (position_le_of_mem_ends a he).2
  rw [Pattern.ends, rounds]
  refine Logged.bind_congr_value (congrArg _ (Logged.gather_congr fun d hd => ?_))
  obtain ⟨hd, hlt⟩ := mem_advances.1 hd
  have := within c d hd
  rw [Pattern.ends]
  exact rounds_eq_of_lt within (by omega) (by omega)

end Unfolding

/-- The advances of a round lie on the stack from the last to the first. -/
theorem pushBeyond_eq (c : Context τ ν) (ends pending : List (Context τ ν)) :
    pushBeyond c.position ends pending = advances c ends ++ pending := by
  rw [pushBeyond, advances, List.foldl_flip_cons_eq_append']

/-! ### The outcome of a task

Every task has one outcome, which is what the equations for `ends` ask for.  That a derivation leads to no other is an
induction on the derivation; that there is one is an induction on the pattern, and for the loop on the multiset of the
numbers of tokens ahead.
-/

section Outcome

variable {ignores : Predicate τ ν} {stream : List τ}

/-- A loop that is started on one context has to come to the repetition from there. -/
theorem outcome_loop_singleton (a : Pattern τ ν) (c : Context τ ν) :
    (Task.loop a [c] []).outcome ignores stream = a.star.ends ignores stream c := by
  refine Logged.ext ?_ ?_ <;> simp [Task.outcome]

/-- A turn of the loop does not change what the loop has to come to. -/
theorem outcome_loop_cons (a : Pattern τ ν) (c : Context τ ν) (pending found : List (Context τ ν)) :
    (Task.loop a (c :: pending) found).outcome ignores stream = (do
      let round ← a.ends ignores stream c
      (Task.loop a (pushBeyond c.position round pending) (found ++ [c])).outcome ignores stream) := by
  refine Logged.ext ?_ ?_
  · simp only [Task.outcome, Logged.value_map, Logged.value_gather, Logged.value_bind, List.flatMap_cons,
      ends_star_eq ignores stream a c, pushBeyond_eq, List.flatMap_append, List.append_assoc,
      List.cons_append, List.nil_append]
  · simp only [Task.outcome, Logged.events_map, Logged.events_gather, Logged.events_bind, List.flatMap_cons,
      ends_star_eq ignores stream a c, pushBeyond_eq, List.flatMap_append, List.append_assoc]

/-- **The work on a task can end in one way only.** -/
theorem eq_outcome_of_evaluates {task : Task τ ν} {r : Logged (Event τ) (List (Context τ ν))}
    (h : Evaluates ignores stream task r) : r = task.outcome ignores stream := by
  induction h with
  | token => rfl
  | seq _ _ first second =>
      rw [second, first]
      rfl
  | alt _ _ first second =>
      rw [first, second]
      exact Logged.ext rfl (congrArg (_ ++ ·) (List.append_nil _).symm)
  | star _ loop => rw [loop, outcome_loop_singleton, Task.outcome]
  | eachNil => rfl
  | eachCons _ _ head tail =>
      rw [head, tail]
      rfl
  | loopEmpty => exact Logged.ext (List.append_nil _).symm rfl
  | loopTurn _ _ body turns =>
      rw [turns, body, outcome_loop_cons]
      rfl

/-- How many tokens lie ahead of each context on the stack. -/
def heights (stream : List τ) (pending : List (Context τ ν)) : Multiset ℕ :=
  pending.map (stream.length - ·.position)

/-- **A turn brings the stack down:** one context goes, and those that come have fewer tokens ahead. -/
theorem heights_pushBeyond {c : Context τ ν} {ends : List (Context τ ν)}
    (within : ∀ d ∈ ends, d.position ≤ max c.position stream.length) (pending : List (Context τ ν)) :
    (heights stream (pushBeyond c.position ends pending)).IsDershowitzMannaLT
      (heights stream (c :: pending)) := by
  refine ⟨heights stream pending, heights stream (advances c ends), {stream.length - c.position},
    Multiset.singleton_ne_zero _, ?_, ?_, fun n hn => ⟨_, Multiset.mem_singleton_self _, ?_⟩⟩
  · rw [pushBeyond_eq, add_comm, heights, List.map_append]
    rfl
  · rw [add_comm]
    rfl
  · obtain ⟨d, hd, rfl⟩ := List.mem_map.1 (Multiset.mem_coe.1 hn)
    obtain ⟨hd, hlt⟩ := mem_advances.1 hd
    have := within d hd
    omega

/-- A pattern that comes to an end from each context does so from several in turn. -/
theorem exists_evaluates_each {q : Pattern τ ν}
    (hq : ∀ c, ∃ r, Evaluates ignores stream (.pattern q c) r) (cs : List (Context τ ν)) :
    ∃ r, Evaluates ignores stream (.each q cs) r := by
  induction cs with
  | nil => exact ⟨_, .eachNil⟩
  | cons c cs ih =>
      obtain ⟨first, head⟩ := hq c
      obtain ⟨rest, tail⟩ := ih
      exact ⟨_, .eachCons head tail⟩

/-- The loop of a repetition comes to an end if each round does, whatever is on the stack. -/
theorem exists_evaluates_loop {a : Pattern τ ν}
    (ha : ∀ c, ∃ r, Evaluates ignores stream (.pattern a c) r) (pending found : List (Context τ ν)) :
    ∃ r, Evaluates ignores stream (.loop a pending found) r := by
  induction pending using (InvImage.wf (heights stream)
    Multiset.wellFounded_isDershowitzMannaLT).induction generalizing found with
  | _ pending ih =>
      cases pending with
      | nil => exact ⟨_, .loopEmpty⟩
      | cons c pending =>
          obtain ⟨round, body⟩ := ha c
          have within : ∀ d ∈ round.value, d.position ≤ max c.position stream.length := by
            rw [eq_outcome_of_evaluates body]
            exact fun d hd => (position_le_of_mem_ends a hd).2
          obtain ⟨ends, turns⟩ := ih _ (heights_pushBeyond within pending) (found ++ [c])
          exact ⟨_, .loopTurn body turns⟩

/-- The work on a pattern comes to an end. -/
theorem exists_evaluates_pattern (q : Pattern τ ν) (c : Context τ ν) :
    ∃ r, Evaluates ignores stream (.pattern q c) r := by
  induction q generalizing c with
  | token p => exact ⟨_, .token⟩
  | seq a b iha ihb =>
      obtain ⟨middle, first⟩ := iha c
      obtain ⟨ends, second⟩ := exists_evaluates_each ihb middle.value
      exact ⟨_, .seq first second⟩
  | alt a b iha ihb =>
      obtain ⟨left, first⟩ := iha c
      obtain ⟨right, second⟩ := ihb c
      exact ⟨_, .alt first second⟩
  | star a ih =>
      obtain ⟨ends, loop⟩ := exists_evaluates_loop ih [c] []
      exact ⟨_, .star loop⟩

/-- **The work on every task comes to an end, with its outcome.** -/
theorem evaluates_iff {task : Task τ ν} {r : Logged (Event τ) (List (Context τ ν))} :
    Evaluates ignores stream task r ↔ r = task.outcome ignores stream := by
  refine ⟨eq_outcome_of_evaluates, ?_⟩
  rintro rfl
  have ended : ∃ r, Evaluates ignores stream task r := by
    cases task with
    | pattern q c => exact exists_evaluates_pattern q c
    | each q cs => exact exists_evaluates_each (exists_evaluates_pattern q) cs
    | loop a pending found => exact exists_evaluates_loop (exists_evaluates_pattern a) pending found
  obtain ⟨r, h⟩ := ended
  exact eq_outcome_of_evaluates h ▸ h

end Outcome

/-- **The loop of a repetition is the unfolding of the repetition, order included.**  Whatever is on the stack and
whatever has been listed before, the loop comes to an end, and appends what the repetition gives from each context
on the stack, the top first.  From one context the repetition gives that context and then, for each end of the
body that lies beyond it, from the last to the first, what the repetition gives from there; it reports what the
body reports and then what those repetitions report. -/
theorem loop_is_unfolding (ignores : Predicate τ ν) (stream : List τ) (a : Pattern τ ν) (c : Context τ ν) :
    (∀ pending found r, Evaluates ignores stream (.loop a pending found) r ↔
      r = (found ++ ·) <$> Logged.gather pending (a.star.ends ignores stream)) ∧
    (∀ r, Evaluates ignores stream (.pattern a.star c) r ↔ r = a.star.ends ignores stream c) ∧
    (a.star.ends ignores stream c).value =
      c :: ((a.ends ignores stream c).value.filter (c.position < ·.position)).reverse.flatMap
        (fun d => (a.star.ends ignores stream d).value) ∧
    (a.star.ends ignores stream c).events = (a.ends ignores stream c).events ++
      ((a.ends ignores stream c).value.filter (c.position < ·.position)).reverse.flatMap
        fun d => (a.star.ends ignores stream d).events := by
  refine ⟨fun _ _ _ => evaluates_iff, fun _ => evaluates_iff, ?_, ?_⟩
  · exact value_ends_star_eq a
  · rw [ends_star_eq, Logged.events_bind, Logged.events_map, Logged.events_gather, advances]

/-- In rounds of one letter or of two, the end behind two letters is followed before the end behind one. -/
example :
    ((Pattern.star (.alt (.token .always) (.seq (.token .always) (.token .always)))).ends
      (.never : Predicate Char Char) ['a', 'a'] .start).value.map (·.position) = [0, 2, 1, 2] := by
  decide

end Sequence
end LoopPlumbing
