/- # Words of predicates laid along a stream

What a word of predicates does to a stream, said without the engine.  `remaining` lists the tokens that are
not passed over, with their positions.  `thread` tests such tokens one by one against a word, handing the
context on; `walk` threads a word through as many of the remaining tokens as it is long.

A token of a pattern ends where the word of its one predicate leads (`value_tokenEnds`), and a word may be
walked in two parts (`walk_append`), so patterns can be described by the words that they stand for.  Any
number of tokens ends behind each of the tokens that remain (`value_ends_any_star`).

Passing over tokens is settled here once and for all.  The engine moves its cursor past them before each token and
at the end of a match, one position at a time; `skipIgnored_spec` says where it comes to stand, and `remaining`
turns positions into a list to go through.  Most of what follows speaks of what remains and of nothing else.
-/

import LoopPlumbing.Proofs.Sequence.Progress

namespace LoopPlumbing
namespace Sequence

variable {τ ν : Type}

/-- The tokens from a position on that are not passed over, each with its own position. -/
def remaining (ignores : Predicate τ ν) (stream : List τ) (position : ℕ) : List (τ × ℕ) :=
  ((stream.drop position).zipIdx position).filter fun x => !(isIgnored ignores x.1).value

/-- The context that is left when the tokens have satisfied the predicates one by one, each tested with the
cursor on it; behind a token the cursor stands after it.  There must be as many tokens as predicates. -/
def thread : List (Predicate τ ν) → List (τ × ℕ) → Context τ ν → Option (Context τ ν)
  | [], [], c => some c
  | p :: word, x :: tokens, c =>
    (p.test (c.moveTo x.2) x.1).value.bind fun d => thread word tokens (d.moveTo (x.2 + 1))
  | _, _, _ => none

/-- The context that is left when the word has been threaded through the tokens that come next. -/
def walk (ignores : Predicate τ ν) (stream : List τ) (word : List (Predicate τ ν))
    (c : Context τ ν) : Option (Context τ ν) :=
  thread word ((remaining ignores stream c.position).take word.length) c

/-! ### What remains

From a position on, the tokens that are not passed over remain, each with its place.
-/

section Remaining

variable {ignores : Predicate τ ν} {stream : List τ} {position : ℕ}

/-- Beyond the end nothing remains. -/
theorem remaining_of_length_le (h : stream.length ≤ position) :
    remaining ignores stream position = [] := by
  rw [remaining, List.drop_eq_nil_of_le h]
  rfl

/-- Beyond the end there is nothing to pass over. -/
theorem skipIgnored_of_length_le (h : stream.length ≤ position) :
    (skipIgnored ignores stream position).value = position := by
  rw [value_skipIgnored, List.drop_eq_nil_of_le h]
  rfl

/-- A token that is passed over is not looked at again. -/
theorem remaining_of_ignored (h : position < stream.length)
    (ignored : (isIgnored ignores stream[position]).value = true) :
    remaining ignores stream position = remaining ignores stream (position + 1) ∧
      (skipIgnored ignores stream position).value =
        (skipIgnored ignores stream (position + 1)).value := by
  rw [value_skipIgnored, value_skipIgnored, remaining, remaining, List.drop_eq_getElem_cons h]
  constructor
  · rw [List.zipIdx_cons, List.filter_cons_of_neg (by simp [ignored])]
  · simp only [List.takeWhile_cons, ignored, if_true, List.length_cons]
    omega

/-- A token that is not passed over comes next where it stands. -/
theorem remaining_of_kept (h : position < stream.length)
    (kept : (isIgnored ignores stream[position]).value = false) :
    remaining ignores stream position =
        (stream[position], position) :: remaining ignores stream (position + 1) ∧
      (skipIgnored ignores stream position).value = position := by
  rw [value_skipIgnored, remaining, remaining, List.drop_eq_getElem_cons h]
  constructor
  · rw [List.zipIdx_cons, List.filter_cons_of_pos (by simp [kept])]
  · simp only [List.takeWhile_cons, kept, Bool.false_eq_true, if_false, List.length_nil]
    omega

/-- Passing over tokens changes nothing about what remains, and stops at a token that is not passed
over. -/
theorem skipIgnored_spec (ignores : Predicate τ ν) (stream : List τ) (position : ℕ) :
    remaining ignores stream (skipIgnored ignores stream position).value =
        remaining ignores stream position ∧
      ∀ h : (skipIgnored ignores stream position).value < stream.length,
        (isIgnored ignores stream[(skipIgnored ignores stream position).value]).value = false := by
  induction h : stream.length - position generalizing position with
  | zero =>
      have hp : stream.length ≤ position := by omega
      rw [skipIgnored_of_length_le hp]
      exact ⟨rfl, fun hlt => absurd hlt (by omega)⟩
  | succ n ih =>
      have hp : position < stream.length := by omega
      cases hi : (isIgnored ignores stream[position]).value with
      | true =>
          obtain ⟨hr, hs⟩ := remaining_of_ignored hp hi
          rw [hr]
          simp only [hs]
          exact ih (position + 1) (by omega)
      | false =>
          have hs := (remaining_of_kept hp hi).2
          simp only [hs]
          exact ⟨trivial, fun _ => hi⟩

/-- **Passing over tokens leads to the first remaining one**, and to the end of the stream if none
remains. -/
theorem remaining_eq (ignores : Predicate τ ν) (stream : List τ) (position : ℕ) :
    remaining ignores stream position =
      match stream[(skipIgnored ignores stream position).value]? with
      | none => []
      | some t => (t, (skipIgnored ignores stream position).value) ::
          remaining ignores stream ((skipIgnored ignores stream position).value + 1) := by
  obtain ⟨same, kept⟩ := skipIgnored_spec ignores stream position
  rw [← same]
  generalize (skipIgnored ignores stream position).value = i at kept
  by_cases hi : i < stream.length
  · rw [List.getElem?_eq_getElem hi]
    exact (remaining_of_kept hi (kept hi)).1
  · rw [List.getElem?_eq_none (by omega)]
    exact remaining_of_length_le (by omega)

/-- Behind the first remaining token the others remain. -/
theorem remaining_succ {x : τ × ℕ} {tokens : List (τ × ℕ)}
    (h : remaining ignores stream position = x :: tokens) :
    remaining ignores stream (x.2 + 1) = tokens := by
  rw [remaining_eq] at h
  split at h
  · cases h
  · cases h
    rfl

/-- Passing over tokens does not leave the stream. -/
theorem skipIgnored_le (h : position ≤ stream.length) :
    (skipIgnored ignores stream position).value ≤ stream.length := by
  have := (List.takeWhile_sublist (l := stream.drop position)
    fun t => (isIgnored ignores t).value).length_le
  rw [List.length_drop] at this
  rw [value_skipIgnored]
  omega

/-- Nothing remains exactly where passing over tokens leads to the end of the stream. -/
theorem remaining_eq_nil_iff (h : position ≤ stream.length) :
    remaining ignores stream position = [] ↔
      (skipIgnored ignores stream position).value = stream.length := by
  have le : (skipIgnored ignores stream position).value ≤ stream.length := skipIgnored_le h
  rw [remaining_eq]
  split
  · next hnone =>
      have := List.getElem?_eq_none_iff.1 hnone
      exact iff_of_true rfl (by omega)
  · next hsome =>
      have := (List.getElem?_eq_some_iff.1 hsome).1
      exact iff_of_false (by simp) (by omega)

/-- What remains stands in the stream and is not passed over. -/
theorem getElem?_of_mem_remaining {x : τ × ℕ} (h : x ∈ remaining ignores stream position) :
    stream[x.2]? = some x.1 ∧ (isIgnored ignores x.1).value = false := by
  obtain ⟨there, kept⟩ := List.mem_filter.1 h
  obtain ⟨le, at_offset⟩ := List.mk_mem_zipIdx_iff_le_and_getElem?_sub.1 there
  rw [List.getElem?_drop, Nat.add_sub_cancel' le] at at_offset
  exact ⟨at_offset, by simpa using kept⟩

/-- What remains stands in the stream. -/
theorem lt_length_of_mem_remaining {x : τ × ℕ} (h : x ∈ remaining ignores stream position) :
    x.2 < stream.length :=
  (List.getElem?_eq_some_iff.1 (getElem?_of_mem_remaining h).1).1

end Remaining

/-! ### Walks

A word is walked by taking the next remaining token for each of its predicates.
-/

section Walks

variable (ignores : Predicate τ ν) (stream : List τ) (c : Context τ ν)

/-- A word of no predicates is walked in place. -/
@[simp] theorem walk_nil : walk ignores stream [] c = some c := rfl

/-- A word is walked by its first predicate on the next remaining token, and then by the others from behind that
token. -/
theorem walk_cons (p : Predicate τ ν) (word : List (Predicate τ ν)) :
    walk ignores stream (p :: word) c =
      (remaining ignores stream c.position).head?.bind fun x =>
        (p.test (c.moveTo x.2) x.1).value.bind fun d =>
          walk ignores stream word (d.moveTo (x.2 + 1)) := by
  rw [walk]
  cases h : remaining ignores stream c.position with
  | nil => rfl
  | cons x tokens =>
      rw [List.length_cons, List.take_succ_cons, thread, List.head?_cons, Option.bind_some]
      refine congrArg _ (funext fun d => ?_)
      rw [walk, Context.moveTo, remaining_succ h]

/-- **A word is walked in two parts.** -/
theorem walk_append (v w : List (Predicate τ ν)) :
    walk ignores stream (v ++ w) c =
      (walk ignores stream v c).bind fun d => walk ignores stream w d := by
  induction v generalizing c with
  | nil => rfl
  | cons p v ih =>
      rw [List.cons_append, walk_cons, walk_cons, Option.bind_assoc]
      refine congrArg _ (funext fun x => ?_)
      rw [Option.bind_assoc]
      exact congrArg _ (funext fun d => ih _)

/-- **A token of a pattern is a word of one predicate.** -/
theorem value_tokenEnds (p : Predicate τ ν) :
    (tokenEnds ignores stream p c).value = (walk ignores stream [p] c).toList := by
  rw [tokenEnds, Logged.value_bind, walk_cons, remaining_eq]
  generalize (skipIgnored ignores stream c.position).value = position
  cases stream[position]? with
  | none => rfl
  | some t =>
      rw [List.head?_cons, Option.bind_some]
      cases h : (p.test (c.moveTo position) t).value <;> simp [h]

/-- **Any number of tokens:** the cursor stays or moves behind one of the remaining tokens. -/
theorem value_ends_any_star :
    (Pattern.any.star.ends ignores stream c).value =
      c :: (remaining ignores stream c.position).map fun x => c.moveTo (x.2 + 1) := by
  induction c using star_induction ignores stream .any with
  | step c rest =>
      rw [value_ends_star_eq]
      rw [advances_eq_reverse rfl, Pattern.any, value_ends_token, value_tokenEnds, walk_cons] at rest ⊢
      refine congrArg _ ?_
      cases h : remaining ignores stream c.position with
      | nil => rfl
      | cons x tokens =>
          rw [h] at rest
          have next := rest _ (List.mem_singleton_self _)
          rw [Context.moveTo, remaining_succ h] at next
          exact (List.flatMap_singleton _ _).trans next

variable {ignores stream c}

/-- A word that is not empty leads forward, within the stream. -/
theorem position_of_walk_eq_some {word : List (Predicate τ ν)} {d : Context τ ν}
    (hw : word ≠ []) (h : walk ignores stream word c = some d) :
    c.position < d.position ∧ d.position ≤ stream.length := by
  induction word generalizing c with
  | nil => exact absurd rfl hw
  | cons p word ih =>
      rw [← List.singleton_append, walk_append] at h
      obtain ⟨e, he, hd⟩ := Option.bind_eq_some_iff.1 h
      have hce : c.position < e.position ∧ e.position ≤ stream.length :=
        position_of_mem_tokenEnds (by rw [value_tokenEnds, he]; exact List.mem_singleton_self e)
      cases word with
      | nil =>
          cases hd
          exact hce
      | cons p' word =>
          have := ih (List.cons_ne_nil _ _) hd
          omega

/-- No word leads past the end of the stream. -/
theorem position_le_of_walk_eq_some {word : List (Predicate τ ν)} {d : Context τ ν}
    (h : walk ignores stream word c = some d) : d.position ≤ max c.position stream.length := by
  cases word with
  | nil =>
      cases h
      exact le_max_left _ _
  | cons p word => exact (position_of_walk_eq_some (List.cons_ne_nil _ _) h).2.trans (le_max_right _ _)

/-- A word can be threaded through all that remains exactly if it can be walked and nothing remains
then. -/
theorem thread_remaining_eq_some {word : List (Predicate τ ν)} {d : Context τ ν} :
    thread word (remaining ignores stream c.position) c = some d ↔
      walk ignores stream word c = some d ∧ remaining ignores stream d.position = [] := by
  induction word generalizing c with
  | nil =>
      rw [walk_nil]
      cases h : remaining ignores stream c.position with
      | nil =>
          rw [thread]
          exact ⟨fun e => ⟨e, by cases e; exact h⟩, And.left⟩
      | cons x tokens =>
          rw [thread]
          · refine iff_of_false (by simp) ?_
            rintro ⟨e, hd⟩
            cases e
            rw [h] at hd
            cases hd
          all_goals simp
  | cons p word ih =>
      rw [walk_cons]
      cases h : remaining ignores stream c.position with
      | nil => simp [thread]
      | cons x tokens =>
          rw [thread, List.head?_cons, Option.bind_some]
          cases (p.test (c.moveTo x.2) x.1).value with
          | none => simp
          | some e =>
              rw [Option.bind_some, Option.bind_some, ← remaining_succ h]
              exact ih (c := e.moveTo (x.2 + 1))

end Walks

end Sequence
end LoopPlumbing
