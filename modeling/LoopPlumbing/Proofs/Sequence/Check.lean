/- # What the check accepts

The check, read as a condition on each kind of pattern: when it accepts a pattern and which slots it then
says are bound, and which part it complains about if it rejects the pattern.  It accepts a repetition only if
the body can not match nothing, so in an accepted pattern every round consumes a token
(`roundsConsume_of_check`).

A pattern compiles exactly if it passes the check from no slots, and then to itself.

The lemmas are equivalences, with the slots that are bound afterwards spelt out, so that they may be read in both
directions: what follows from a pattern that passes, and what a pattern needs to pass.  The message of a failure is
that of the part that fails first, from left to right.
-/

import LoopPlumbing.Sequence.Matcher
import Mathlib.Data.List.Basic

namespace LoopPlumbing
namespace Sequence
namespace Pattern

variable {τ ν : Type}

/-! ### Patterns that pass, constructor by constructor -/

/-- A token passes if all that it requires is bound, and binds what it declares. -/
theorem check_token_eq_ok {p : Predicate τ ν} {bound after : List Slot} :
    (token p).check bound = .ok after ↔
      (∀ s ∈ p.requires, s ∈ bound) ∧ after = bound ++ p.binds := by
  rw [check]
  split
  · next s hs =>
      have missing : s ∉ bound := by simpa using List.find?_some hs
      refine iff_of_false (by simp) fun h => missing (h.1 s (List.mem_of_find?_eq_some hs))
  · next hs =>
      have all : ∀ s ∈ p.requires, s ∈ bound := by simpa using hs
      rw [Except.ok.injEq, and_iff_right all, eq_comm]

/-- A sequence passes if each part does, the second with what the first has bound. -/
theorem check_seq_eq_ok {a b : Pattern τ ν} {bound after : List Slot} :
    (a.seq b).check bound = .ok after ↔
      ∃ middle, a.check bound = .ok middle ∧ b.check middle = .ok after := by
  rw [check]
  cases a.check bound <;> simp [bind, Except.bind]

/-- Alternatives pass if both do, and bind what both bind. -/
theorem check_alt_eq_ok {a b : Pattern τ ν} {bound after : List Slot} :
    (a.alt b).check bound = .ok after ↔
      ∃ left right, a.check bound = .ok left ∧ b.check bound = .ok right ∧
        after = left.filter (· ∈ right) := by
  rw [check]
  cases a.check bound <;> cases b.check bound <;>
    simp [bind, Except.bind, pure, Except.pure, eq_comm]

/-- The check accepts a repetition only if its body can not match nothing. -/
theorem check_star_eq_ok {a : Pattern τ ν} {bound after : List Slot} :
    a.star.check bound = .ok after ↔
      a.nullable = false ∧ (∃ inner, a.check bound = .ok inner) ∧ after = bound := by
  rw [check]
  cases a.nullable with
  | true => simp
  | false =>
      cases a.check bound with
      | error fault => simp [bind, Except.bind]
      | ok inner => simp [bind, Except.bind, pure, Except.pure, eq_comm]

/-! ### Patterns that fail, constructor by constructor -/

/-- A token fails by a slot that it requires and that is not bound. -/
theorem exists_of_check_token_eq_error {p : Predicate τ ν} {bound : List Slot} {fault : Fault}
    (h : (token p).check bound = .error fault) :
    ∃ s ∈ p.requires, s ∉ bound ∧ fault = .unboundSlot s.name := by
  rw [check] at h
  split at h
  · next s hs =>
      have missing : s ∉ bound := by simpa using List.find?_some hs
      exact ⟨s, List.mem_of_find?_eq_some hs, missing, (Except.error.inj h).symm⟩
  · cases h

/-- A sequence fails by its first part, or by its second behind the first. -/
theorem check_seq_eq_error {a b : Pattern τ ν} {bound : List Slot} {fault : Fault} :
    (a.seq b).check bound = .error fault ↔
      a.check bound = .error fault ∨
        ∃ middle, a.check bound = .ok middle ∧ b.check middle = .error fault := by
  rw [check]
  cases a.check bound <;> simp [bind, Except.bind]

/-- Alternatives fail by the left one, or by the right one if the left one passes. -/
theorem check_alt_eq_error {a b : Pattern τ ν} {bound : List Slot} {fault : Fault} :
    (a.alt b).check bound = .error fault ↔
      a.check bound = .error fault ∨
        ∃ left, a.check bound = .ok left ∧ b.check bound = .error fault := by
  rw [check]
  cases a.check bound <;> cases b.check bound <;> simp [bind, Except.bind, pure, Except.pure]

/-- A repetition is rejected because of its body, and first of all because the body can match nothing. -/
theorem check_star_eq_error {a : Pattern τ ν} {bound : List Slot} {fault : Fault} :
    a.star.check bound = .error fault ↔
      if a.nullable then fault = .emptyRepetition else a.check bound = .error fault := by
  rw [check]
  split
  · rw [Except.error.injEq, eq_comm]
  · cases a.check bound <;> simp [bind, Except.bind, pure, Except.pure]

/-! ### Compilation -/

/-- What a pattern compiles to is the pattern with the options. -/
theorem compile_eq_ok {q : Pattern τ ν} {options : Options τ ν} {m : Matcher τ ν} :
    q.compile options = .ok m ↔ m.pattern = q ∧ m.options = options := by
  constructor
  · intro h
    unfold compile at h
    split at h
    · cases h
      exact ⟨rfl, rfl⟩
    · cases h
  · rintro ⟨rfl, rfl⟩
    obtain ⟨pattern, options, bound, checked⟩ := m
    unfold compile
    split
    · rfl
    · next fault h =>
        rw [checked] at h
        cases h

/-- A pattern compiles exactly if the check accepts it. -/
theorem exists_compile_eq_ok {q : Pattern τ ν} {options : Options τ ν} :
    (∃ m, q.compile options = .ok m) ↔ ∃ bound, q.check [] = .ok bound := by
  constructor
  · rintro ⟨m, h⟩
    obtain ⟨rfl, -⟩ := compile_eq_ok.1 h
    exact m.checked
  · rintro ⟨bound, h⟩
    exact ⟨⟨q, options, bound, h⟩, compile_eq_ok.2 ⟨rfl, rfl⟩⟩

/-- What is wrong with a pattern that does not compile is what the check says. -/
theorem compile_eq_error {q : Pattern τ ν} {options : Options τ ν} {fault : Fault} :
    q.compile options = .error fault ↔ q.check [] = .error fault := by
  unfold compile
  split
  · next bound h => simp [h]
  · next fault' h => simp [h]

/-! ### Rounds of repetitions -/

/-- No repetition in the pattern has a body that can match nothing. -/
def RoundsConsume : Pattern τ ν → Prop
  | token _ => True
  | seq a b => a.RoundsConsume ∧ b.RoundsConsume
  | alt a b => a.RoundsConsume ∧ b.RoundsConsume
  | star a => a.nullable = false ∧ a.RoundsConsume

/-- In a pattern that passes the check every round consumes a token. -/
theorem roundsConsume_of_check {q : Pattern τ ν} {bound after : List Slot}
    (h : q.check bound = .ok after) : q.RoundsConsume := by
  induction q generalizing bound after with
  | token p => trivial
  | seq a b iha ihb =>
      obtain ⟨middle, ha, hb⟩ := check_seq_eq_ok.1 h
      exact ⟨iha ha, ihb hb⟩
  | alt a b iha ihb =>
      obtain ⟨left, right, ha, hb, -⟩ := check_alt_eq_ok.1 h
      exact ⟨iha ha, ihb hb⟩
  | star a ih =>
      obtain ⟨hn, ⟨inner, ha⟩, -⟩ := check_star_eq_ok.1 h
      exact ⟨hn, ih ha⟩

end Pattern
end Sequence
end LoopPlumbing
