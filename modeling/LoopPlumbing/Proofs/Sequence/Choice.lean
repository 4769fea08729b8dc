/- # Choosing the first or trying both

Two alternatives for one token may be written as one predicate, which is decided by the first of them that holds, or
as two patterns, of which both are tried.  Their declarations were worked out apart, as lists of slots on the one hand
and by the check of two branches on the other, and agree (`mem_binds_choice_iff`): so neither form is checked more
strictly than the other.

From every context the choice ends where the alternation does, less the end of the second alternative where both hold
(`value_ends_choice_sublist`).  A part of a list stays a part of it through all that matching does with lists, turning
it around included (`carried_sublist`), so whatever stands around the choice lists a part of what it lists around the
alternation, in the same order.  Where both alternatives never hold together nothing is lost.
-/

import LoopPlumbing.Proofs.Sequence.Surroundings
import LoopPlumbing.Proofs.Sequence.Walk
import Mathlib.Data.List.Flatten

namespace LoopPlumbing
namespace Sequence

open scoped List

variable {τ ν : Type} (a b : Predicate τ ν)

/-- One token for which the first of two predicates that holds decides. -/
def Pattern.choice : Pattern τ ν := .token (a.or b)

/-- One token for which two predicates are tried. -/
def Pattern.either : Pattern τ ν := .alt (.token a) (.token b)

/-! ### The verdict

The choice declares what it requires by both branches and what it binds as common to both, as the check does for an
alternation.  So neither form is stricter than the other.
-/

section Verdict

/-- What both branches bind, the choice declares to bind. -/
theorem mem_binds_choice_iff {bound : List Slot} {s : Slot} :
    s ∈ (bound ++ a.binds).filter (· ∈ bound ++ b.binds) ↔ s ∈ bound ∨ s ∈ (a.or b).binds := by
  rw [List.mem_filter, decide_eq_true_iff, List.mem_append, List.mem_append, Predicate.mem_binds_or, or_and_left]

/-- The alternation passes wherever the choice does. -/
theorem either_noStricterThan_choice : (Pattern.either a b).NoStricterThan (.choice a b) where
  nullable := rfl
  passes {bound bound' after} more h := by
    obtain ⟨reads, rfl⟩ := Pattern.check_token_eq_ok.1 h
    have readsLeft : ∀ s ∈ a.requires, s ∈ bound' := fun s hs =>
      more (reads s (Predicate.mem_requires_or.2 (.inl hs)))
    have readsRight : ∀ s ∈ b.requires, s ∈ bound' := fun s hs =>
      more (reads s (Predicate.mem_requires_or.2 (.inr hs)))
    refine ⟨_, Pattern.check_alt_eq_ok.2 ⟨_, _, Pattern.check_token_eq_ok.2 ⟨readsLeft, rfl⟩,
      Pattern.check_token_eq_ok.2 ⟨readsRight, rfl⟩, rfl⟩, fun s hs => ?_⟩
    exact (mem_binds_choice_iff a b).2 ((List.mem_append.1 hs).imp (@more s) id)

/-- The choice passes wherever the alternation does. -/
theorem choice_noStricterThan_either : (Pattern.choice a b).NoStricterThan (.either a b) where
  nullable := rfl
  passes {bound bound' after} more h := by
    obtain ⟨left, right, ha, hb, rfl⟩ := Pattern.check_alt_eq_ok.1 h
    obtain ⟨readsLeft, rfl⟩ := Pattern.check_token_eq_ok.1 ha
    obtain ⟨readsRight, rfl⟩ := Pattern.check_token_eq_ok.1 hb
    refine ⟨bound' ++ (a.or b).binds, Pattern.check_token_eq_ok.2 ⟨fun s hs => ?_, rfl⟩, fun s hs => ?_⟩
    · exact more ((Predicate.mem_requires_or.1 hs).elim (readsLeft s) (readsRight s))
    · exact List.mem_append.2 (((mem_binds_choice_iff a b).1 hs).imp (@more s) id)

end Verdict

/-! ### The ends

On one token the choice ends where the first branch does, or else where the second does; the alternation lists both.
-/

section Ends

variable (ignores : Predicate τ ν) (stream : List τ) (c : Context τ ν)

/-- A token is taken as the first alternative takes it, and as the second does if the first does not take it. -/
theorem walk_or : walk ignores stream [a.or b] c = (walk ignores stream [a] c).or (walk ignores stream [b] c) := by
  rw [walk_cons, walk_cons, walk_cons]
  cases remaining ignores stream c.position with
  | nil => rfl
  | cons x tokens =>
      rw [List.head?_cons, Option.bind_some, Option.bind_some, Option.bind_some, Predicate.value_test_or]
      cases (a.test (c.moveTo x.2) x.1).value with
      | none => rfl
      | some d => rfl

/-- The choice ends in one context at most. -/
theorem value_ends_choice : ((Pattern.choice a b).ends ignores stream c).value =
    ((walk ignores stream [a] c).or (walk ignores stream [b] c)).toList := by
  rw [Pattern.choice, value_ends_token, value_tokenEnds, walk_or]

/-- The alternation ends in one context for each branch that accepts, the left one first. -/
theorem value_ends_either : ((Pattern.either a b).ends ignores stream c).value =
    (walk ignores stream [a] c).toList ++ (walk ignores stream [b] c).toList := by
  rw [Pattern.either, value_ends_alt, value_ends_token, value_ends_token, value_tokenEnds, value_tokenEnds]

/-- **The choice ends in a part of what the alternation ends in.** -/
theorem value_ends_choice_sublist :
    ((Pattern.choice a b).ends ignores stream c).value <+ ((Pattern.either a b).ends ignores stream c).value := by
  rw [value_ends_choice, value_ends_either]
  cases walk ignores stream [a] c with
  | none => exact List.Sublist.refl _
  | some d => exact List.sublist_append_left _ _

/-- Where the alternatives never hold together, both forms end alike. -/
theorem value_ends_choice_eq (apart : ∀ c t, (a.test c t).value = none ∨ (b.test c t).value = none) :
    ((Pattern.choice a b).ends ignores stream c).value = ((Pattern.either a b).ends ignores stream c).value := by
  have one : walk ignores stream [a] c = none ∨ walk ignores stream [b] c = none := by
    rw [walk_cons, walk_cons]
    cases remaining ignores stream c.position with
    | nil => exact .inl rfl
    | cons x tokens =>
        rw [List.head?_cons, Option.bind_some, Option.bind_some]
        exact (apart (c.moveTo x.2) x.1).imp (fun none => by rw [none]; rfl) fun none => by rw [none]; rfl
  rw [value_ends_choice, value_ends_either]
  rcases one with none | none
  · rw [none]
    rfl
  · rw [none, Option.or_none]
    exact (List.append_nil _).symm

end Ends

/-- A part of a list is a part of it after all that matching does with lists. -/
theorem carried_sublist : Carried (τ := τ) (ν := ν) (· <+ ·) where
  refl := .refl
  append left right := left.append right
  flatMap {l l' f f'} part parts :=
    calc l.flatMap f
      _ <+ l.flatMap f' := List.Sublist.flatMap_right l parts
      _ <+ l'.flatMap f' := part.flatMap f'
  filter p part := part.filter p
  reverse part := part.reverse

/-- **Choosing the first alternative finds a part of what trying both finds.**  For all predicates, whatever they
declare, and within any larger pattern: with the choice the pattern compiles exactly if it does with the alternation.
Under all options, on every stream and from every context, what is listed with the choice is listed with the
alternation too, in the same order and at least as often; so a stream that is accepted stays accepted.  If the
alternatives never hold of the same token in the same context, both forms list the same. -/
theorem choice_within_either (s : Surroundings τ ν) :
    Interchangeable (· <+ ·) (s.fill (.choice a b)) (s.fill (.either a b)) ∧
    (∀ options m m', (s.fill (.choice a b)).compile options = .ok m →
      (s.fill (.either a b)).compile options = .ok m' →
        ∀ stream, (m.accepts stream).value = true → (m'.accepts stream).value = true) ∧
    ((∀ c t, (a.test c t).value = none ∨ (b.test c t).value = none) →
      Interchangeable (· = ·) (s.fill (.choice a b)) (s.fill (.either a b))) := by
  have forth := either_noStricterThan_choice a b
  have back := choice_noStricterThan_either a b
  have part : Interchangeable (· <+ ·) (s.fill (.choice a b)) (s.fill (.either a b)) :=
    carried_sublist.interchangeable forth back (value_ends_choice_sublist a b) s
  refine ⟨part, fun options m m' hm hm' stream accepted => ?_, fun apart => ?_⟩
  · have found := (part options).2 m m' hm hm' stream Context.start
    rw [Matcher.accepts, Logged.value_map, Bool.not_eq_true', List.isEmpty_eq_false_iff] at accepted ⊢
    exact fun nothing => accepted (List.sublist_nil.1 (nothing ▸ found))
  · exact carried_eq.interchangeable forth back
      (fun ignores stream c => value_ends_choice_eq a b ignores stream c apart) s

/-- A letter, which is captured. -/
def capturing : Predicate Char Char := .capture ⟨0, "letter"⟩ some

/-- A letter that is not `a`, which is recorded. -/
def recordingOther : Predicate Char Char := .and (.satisfying (· ≠ 'a')) .recording

/-- The letter `a`, which is captured. -/
def capturingA : Predicate Char Char := .and (.satisfying (· = 'a')) capturing

/-- In `abc`, before the last letter, the choice captures the first letter and can but record the others, while the
alternation captures any one of them or none.  The letter `a` and other letters are told apart, so there both forms
list the same. -/
theorem contexts_capturedOrElseRecorded :
    (∃ m m', ((Pattern.choice capturing .recording).star.seq .any).compile ⟨.never, false, false⟩ = .ok m ∧
      ((Pattern.either capturing .recording).star.seq .any).compile ⟨.never, false, false⟩ = .ok m' ∧
      (m.contexts ['a', 'b', 'c'] .start).value <+ (m'.contexts ['a', 'b', 'c'] .start).value ∧
      (m.contexts ['a', 'b', 'c'] .start).value.map (·.recorded) = [['b']] ∧
      (m'.contexts ['a', 'b', 'c'] .start).value.map (·.recorded) = [['a', 'b'], ['a'], ['b']] ∧
      (m.accepts ['a', 'b', 'c']).value = true ∧ (m'.accepts ['a', 'b', 'c']).value = true) ∧
    (∀ c t, (capturingA.test c t).value = none ∨ (recordingOther.test c t).value = none) ∧
    ∃ m m', ((Pattern.choice capturingA recordingOther).star.seq .any).compile ⟨.never, false, false⟩ = .ok m ∧
      ((Pattern.either capturingA recordingOther).star.seq .any).compile ⟨.never, false, false⟩ = .ok m' ∧
      (m.contexts ['b', 'a', 'c'] .start).value = (m'.contexts ['b', 'a', 'c'] .start).value ∧
      (m.contexts ['b', 'a', 'c'] .start).value = [⟨3, [(0, 'a')], ['b'], false⟩] := by
  have apart : ∀ c t, (capturingA.test c t).value = none ∨ (recordingOther.test c t).value = none := by
    intro c t
    by_cases h : t = 'a'
    · exact .inr (by simp [recordingOther, h])
    · exact .inl (by simp [capturingA, h])
  obtain ⟨part, accepted, -⟩ := choice_within_either capturing .recording (.seqFirst (.starBody .gap) .any)
  obtain ⟨-, -, same⟩ := choice_within_either capturingA recordingOther (.seqFirst (.starBody .gap) .any)
  exact ⟨⟨⟨_, _, _, rfl⟩, ⟨_, _, _, rfl⟩, rfl, rfl, (part _).2 _ _ rfl rfl _ _, by decide, by decide, by decide,
      accepted _ _ _ rfl rfl _ (by decide)⟩, apart,
    ⟨_, _, _, rfl⟩, ⟨_, _, _, rfl⟩, rfl, rfl, (same apart _).2 _ _ rfl rfl _ _, by decide⟩

end Sequence
end LoopPlumbing
