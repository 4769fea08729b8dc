/- # The idioms are written in the vocabulary

What is shown of every pattern over formulas holds of the idioms: their shapes are built from the elements of the
vocabulary, so each idiom is the pattern of a grammar (`Idiom.exists_grammar`).  The shapes are gone through here and
nowhere else.

A grammar is data, and a pattern holds functions, so there is no way to read the grammar off a pattern; each shape
is shown to be expressible where its definition is unfolded, and the pattern is then put together again.
-/

import LoopPlumbing.ForEach.Idiom
import LoopPlumbing.Proofs.Sequence.Formula
import LoopPlumbing.Proofs.Sequence.Simulation

namespace LoopPlumbing
namespace Sequence

variable {τ ν : Type} [BEq ν]

/-- The predicate is that of a formula. -/
def Predicate.Expressible (p : Predicate τ ν) : Prop := ∃ f : Formula τ ν, f.predicate .equalsBound = p

namespace Predicate.Expressible

@[simp] theorem always : (Predicate.always : Predicate τ ν).Expressible := ⟨.always, rfl⟩

@[simp] theorem satisfying (p : τ → Bool) : (Predicate.satisfying p : Predicate τ ν).Expressible :=
  ⟨.satisfying p, rfl⟩

@[simp] theorem recording : (Predicate.recording : Predicate τ ν).Expressible := ⟨.recording, rfl⟩

@[simp] theorem capture (s : Slot) (extract : τ → Option ν) : (Predicate.capture s extract).Expressible :=
  ⟨.capture s extract, rfl⟩

@[simp] theorem equalsBound (s : Slot) (extract : τ → Option ν) : (Predicate.equalsBound s extract).Expressible :=
  ⟨.equalsBound s extract, rfl⟩

@[simp] theorem and {p q : Predicate τ ν} (hp : p.Expressible) (hq : q.Expressible) : (p.and q).Expressible := by
  obtain ⟨f, rfl⟩ := hp
  obtain ⟨g, rfl⟩ := hq
  exact ⟨.and f g, rfl⟩

end Predicate.Expressible

/-- A pattern whose predicates are those of formulas is the pattern of a grammar. -/
theorem Pattern.exists_grammar {q : Pattern τ ν} (h : ∀ p ∈ q.predicates, p.Expressible) :
    ∃ g : Grammar τ ν, g.pattern .equalsBound = q := by
  induction q with
  | token p =>
      obtain ⟨f, rfl⟩ := h p List.mem_cons_self
      exact ⟨.token f, rfl⟩
  | seq a b iha ihb =>
      obtain ⟨g, rfl⟩ := iha fun p hp => h p (List.mem_append_left _ hp)
      obtain ⟨g', rfl⟩ := ihb fun p hp => h p (List.mem_append_right _ hp)
      exact ⟨.seq g g', rfl⟩
  | alt a b iha ihb =>
      obtain ⟨g, rfl⟩ := iha fun p hp => h p (List.mem_append_left _ hp)
      obtain ⟨g', rfl⟩ := ihb fun p hp => h p (List.mem_append_right _ hp)
      exact ⟨.alt g g', rfl⟩
  | star a ih =>
      obtain ⟨g, rfl⟩ := ih h
      exact ⟨.star g, rfl⟩

end Sequence

namespace ForEach

open Bytecode
open Sequence

/-- The tokens of a pattern followed by shapes are its own and these shapes. -/
theorem mem_predicates_followedBy {q : Pattern Instruction Captured} {shapes : List Shape} {p : Shape} :
    p ∈ (followedBy q shapes).predicates ↔ p ∈ q.predicates ∨ p ∈ shapes := by
  induction shapes generalizing q with
  | nil => simp [followedBy]
  | cons shape shapes ih =>
      have rest : followedBy q (shape :: shapes) = followedBy (q.thenToken shape) shapes := rfl
      rw [rest, ih]
      simp only [Pattern.thenToken, Pattern.predicates, List.mem_append, List.mem_cons, List.not_mem_nil,
        or_false, or_assoc]

namespace Idiom

/-- The shapes that an idiom is made of. -/
theorem mem_predicates_pattern {x : Idiom} {p : Shape} (h : p ∈ x.pattern.predicates) :
    p ∈ x.first :: x.header ++ x.footer ∨ p = Shape.any := by
  rw [pattern, mem_predicates_followedBy, Pattern.thenStar, Pattern.predicates, List.mem_append,
    mem_predicates_followedBy] at h
  rcases h with ((h | h) | h) | h
  · exact .inl (by simp [List.mem_singleton.1 h])
  · exact .inl (by simp [h])
  · exact .inr (List.mem_singleton.1 h)
  · exact .inl (by simp [h])

/-- **Each idiom is the pattern of a grammar.** -/
theorem exists_grammar (x : Idiom) : ∃ g : Grammar Instruction Captured, g.pattern .equalsBound = x.pattern := by
  have shapes : ∀ p ∈ x.first :: x.header ++ x.footer, p.Expressible := by
    cases x <;>
      simp [first, header, footer, plumbing, iteratorCall, hasNext, next, Shape.opcode, Shape.goto,
        Shape.gotoBound, Shape.label, Shape.labelBound, Shape.jump, Shape.jumpBound, Shape.branch,
        Shape.branchBound, Shape.conditionalJump, Shape.store, Shape.incrementBound, Shape.constInt,
        Shape.callTo, Shape.callReturning]
  refine Pattern.exists_grammar fun p hp => ?_
  rcases mem_predicates_pattern hp with hp | rfl
  · exact shapes p hp
  · exact .always

end Idiom
end ForEach
end LoopPlumbing
