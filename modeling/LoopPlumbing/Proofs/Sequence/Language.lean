/- # The words of a pattern

The language of a pattern over its predicates: a sequence stands for concatenation, an alternation for
union and a repetition for the star.  A pattern has some word, and it can match nothing exactly if the empty
word is one of its words (`nil_mem_language_iff`).

A place in a word that is put together from words lies in one of them: in a concatenation in the first or in
the second word (`append_cons_eq_append_iff`), in a word of a repetition in one of its rounds
(`exists_round_of_flatten_eq`).
-/

import LoopPlumbing.Sequence.Pattern
import Mathlib.Computability.Language

namespace LoopPlumbing
namespace Sequence

open scoped Computability

/-! ### Places in a word

A place in a word is the part before it and the part behind it.
-/

section Places

variable {α : Type} {before behind u v : List α} {x : α}

/-- A place in two words put together lies in the first or in the second. -/
theorem append_cons_eq_append_iff :
    before ++ x :: behind = u ++ v ↔
      (∃ rest, u = before ++ x :: rest ∧ behind = rest ++ v) ∨
        ∃ rest, before = u ++ rest ∧ v = rest ++ x :: behind := by
  rw [List.append_eq_append_iff]
  constructor
  · rintro (⟨rest, rfl, h⟩ | ⟨rest, rfl, rfl⟩)
    · cases rest with
      | nil => exact .inr ⟨[], by simp, h.symm⟩
      | cons y rest =>
          obtain ⟨rfl, rfl⟩ := List.cons.inj h
          exact .inl ⟨rest, rfl, rfl⟩
    · exact .inr ⟨rest, rfl, rfl⟩
  · rintro (⟨rest, rfl, rfl⟩ | ⟨rest, rfl, rfl⟩)
    · exact .inl ⟨x :: rest, rfl, rfl⟩
    · exact .inr ⟨rest, rfl, rfl⟩

/-- A place in a sequence of rounds lies in one round, behind some whole rounds. -/
theorem exists_round_of_flatten_eq {rounds : List (List α)}
    (h : rounds.flatten = before ++ x :: behind) :
    ∃ done begun rest, begun ++ x :: rest ∈ rounds ∧ before = done ++ begun := by
  induction rounds generalizing before with
  | nil => simp at h
  | cons round rounds ih =>
      rw [List.flatten_cons, eq_comm, append_cons_eq_append_iff] at h
      rcases h with ⟨rest, hround, -⟩ | ⟨rest, rfl, h⟩
      · exact ⟨[], before, rest, hround ▸ List.mem_cons_self, rfl⟩
      · obtain ⟨done, begun, rest, hmem, rfl⟩ := ih h
        exact ⟨round ++ done, begun, rest, List.mem_cons_of_mem _ hmem, (List.append_assoc _ _ _).symm⟩

end Places

namespace Pattern

variable {τ ν : Type}

/-- The words of predicates that the pattern stands for. -/
def language : Pattern τ ν → Language (Predicate τ ν)
  | token p => {[p]}
  | seq a b => a.language * b.language
  | alt a b => a.language + b.language
  | star a => a.language∗

variable {a b : Pattern τ ν} {p : Predicate τ ν} {word : List (Predicate τ ν)}

/-- The one word of a token is the token. -/
theorem mem_language_token : word ∈ (token p).language ↔ word = [p] := Iff.rfl

/-- A word of a sequence is a word of the first part and then one of the second. -/
theorem mem_language_seq :
    word ∈ (a.seq b).language ↔ ∃ u ∈ a.language, ∃ v ∈ b.language, u ++ v = word := Language.mem_mul

/-- A word of alternatives is a word of one of them. -/
theorem mem_language_alt : word ∈ (a.alt b).language ↔ word ∈ a.language ∨ word ∈ b.language :=
  Language.mem_add _ _ _

/-- A word of a repetition is made of rounds, each a word of the body. -/
theorem mem_language_star :
    word ∈ a.star.language ↔ ∃ rounds : List (List (Predicate τ ν)),
      word = rounds.flatten ∧ ∀ round ∈ rounds, round ∈ a.language := Language.mem_kstar

/-- No round at all is a repetition. -/
theorem nil_mem_language_star : [] ∈ a.star.language := Language.nil_mem_kstar _

/-- One round is a word of a repetition. -/
theorem mem_language_star_of_mem (h : word ∈ a.language) : word ∈ a.star.language := by
  refine mem_language_star.2 ⟨[word], ?_, fun round hround => ?_⟩
  · rw [List.flatten_singleton]
  · exact List.mem_singleton.1 hround ▸ h

/-- Some word can be read off every pattern. -/
theorem exists_mem_language (q : Pattern τ ν) : ∃ word, word ∈ q.language := by
  induction q with
  | token p => exact ⟨[p], rfl⟩
  | seq a b iha ihb =>
      obtain ⟨u, hu⟩ := iha
      obtain ⟨v, hv⟩ := ihb
      exact ⟨u ++ v, mem_language_seq.2 ⟨u, hu, v, hv, rfl⟩⟩
  | alt a b iha _ =>
      obtain ⟨u, hu⟩ := iha
      exact ⟨u, mem_language_alt.2 (.inl hu)⟩
  | star a => exact ⟨[], nil_mem_language_star⟩

/-- **A pattern can match nothing exactly if the empty word is one of its words.** -/
theorem nil_mem_language_iff (q : Pattern τ ν) : [] ∈ q.language ↔ q.nullable = true := by
  induction q with
  | token p => exact iff_of_false (List.cons_ne_nil p [] ∘ Eq.symm) Bool.false_ne_true
  | seq a b iha ihb =>
      rw [nullable, Bool.and_eq_true, ← iha, ← ihb, mem_language_seq]
      constructor
      · rintro ⟨u, hu, v, hv, h⟩
        obtain ⟨rfl, rfl⟩ := List.append_eq_nil_iff.1 h
        exact ⟨hu, hv⟩
      · rintro ⟨ha, hb⟩
        exact ⟨[], ha, [], hb, rfl⟩
  | alt a b iha ihb => rw [nullable, Bool.or_eq_true, ← iha, ← ihb, mem_language_alt]
  | star a => exact iff_of_true nil_mem_language_star rfl

end Pattern
end Sequence
end LoopPlumbing
