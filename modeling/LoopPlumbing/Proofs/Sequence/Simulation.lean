/- # Two searches that run alike

Two searches of one pattern, on two streams or with different tokens passed over, are compared by a relation
between their contexts.  If every predicate of the pattern leads from related contexts to related contexts,
so does the pattern: the ends are related one by one, in the same order (`forall₂_ends`).  The rounds of a
repetition go on alike because in each of them a token is consumed on either side.  If the relation is a map, the
ends of one search are the images of the ends of the other (`value_ends_eq_map`).
-/

import LoopPlumbing.Proofs.Sequence.Check
import LoopPlumbing.Proofs.Sequence.Progress
import Mathlib.Data.List.Forall2

namespace LoopPlumbing
namespace Sequence

open List (Forall₂)

/-- The predicates of the pattern, from left to right. -/
def Pattern.predicates {τ ν : Type} : Pattern τ ν → List (Predicate τ ν)
  | token p => [p]
  | seq a b => a.predicates ++ b.predicates
  | alt a b => a.predicates ++ b.predicates
  | star a => a.predicates

/-- Related lists lead to related lists if related members do. -/
theorem forall₂_flatMap {α β γ δ : Type} {R : α → β → Prop} {S : γ → δ → Prop} {l : List α} {l' : List β}
    {f : α → List γ} {g : β → List δ} (h : Forall₂ R l l')
    (hfg : ∀ a ∈ l, ∀ b, R a b → Forall₂ S (f a) (g b)) : Forall₂ S (l.flatMap f) (l'.flatMap g) := by
  induction h with
  | nil => exact .nil
  | cons hab _ ih =>
      refine List.rel_append (hfg _ List.mem_cons_self _ hab) (ih fun a ha => ?_)
      exact hfg a (List.mem_cons_of_mem _ ha)

section Simulation

variable {τ ν : Type} {ignores ignores' : Predicate τ ν} {stream stream' : List τ}
  {R : Context τ ν → Context τ ν → Prop}

/-- Repetitions simulate each other if their bodies do.  The bodies consume, so the test for progress keeps all their
ends on both sides and the comparison is round by round. -/
theorem forall₂_ends_star {a : Pattern τ ν} (hn : a.nullable = false)
    (body : ∀ c c', R c c' →
      Forall₂ R (a.ends ignores stream c).value (a.ends ignores' stream' c').value)
    {c c' : Context τ ν} (h : R c c') :
    Forall₂ R (a.star.ends ignores stream c).value (a.star.ends ignores' stream' c').value := by
  induction c using star_induction ignores stream a generalizing c' with
  | step c ih =>
      rw [value_ends_star_eq, value_ends_star_eq, advances_eq_reverse hn]
      rw [advances_eq_reverse hn] at ih ⊢
      exact .cons h (forall₂_flatMap (List.rel_reverse (body c c' h)) fun d hd d' hdd' => ih d hd hdd')

/-- **What the predicates keep, the pattern keeps.** -/
theorem forall₂_ends {q : Pattern τ ν} (hq : q.RoundsConsume)
    (token : ∀ p ∈ q.predicates, ∀ c c', R c c' →
      Forall₂ R (tokenEnds ignores stream p c).value (tokenEnds ignores' stream' p c').value)
    {c c' : Context τ ν} (h : R c c') :
    Forall₂ R (q.ends ignores stream c).value (q.ends ignores' stream' c').value := by
  induction q generalizing c c' with
  | token p => exact token p List.mem_cons_self c c' h
  | seq a b iha ihb =>
      rw [value_ends_seq, value_ends_seq]
      have first := iha hq.1 (fun p hp => token p (List.mem_append_left _ hp)) h
      refine forall₂_flatMap first fun d _ d' hdd' => ?_
      exact ihb hq.2 (fun p hp => token p (List.mem_append_right _ hp)) hdd'
  | alt a b iha ihb =>
      rw [value_ends_alt, value_ends_alt]
      exact List.rel_append (iha hq.1 (fun p hp => token p (List.mem_append_left _ hp)) h)
        (ihb hq.2 (fun p hp => token p (List.mem_append_right _ hp)) h)
  | star a ih => exact forall₂_ends_star hq.1 (fun d d' hdd' => ih hq.2 token hdd') h

/-- **What a map does to the ends of the predicates, it does to those of the pattern.** -/
theorem value_ends_eq_map {q : Pattern τ ν} (hq : q.RoundsConsume) {F : Context τ ν → Context τ ν}
    (token : ∀ p ∈ q.predicates, ∀ c, (tokenEnds ignores' stream' p (F c)).value =
      (tokenEnds ignores stream p c).value.map F) (c : Context τ ν) :
    (q.ends ignores' stream' (F c)).value = (q.ends ignores stream c).value.map F := by
  have alike : Forall₂ (fun d e => d = F e) (q.ends ignores' stream' (F c)).value
      (q.ends ignores stream c).value := by
    refine forall₂_ends hq (fun p hp d e h => ?_) rfl
    rw [h, token p hp e, List.forall₂_map_left_iff]
    exact List.forall₂_same.2 fun _ _ => rfl
  rw [← List.forall₂_eq_eq_eq, List.forall₂_map_right_iff]
  exact alike

end Simulation

end Sequence
end LoopPlumbing
