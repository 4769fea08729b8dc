/- # The check is exact

The check looks at each part of a pattern once and knows the slots that are bound there as one set.  The
language of the pattern has a word for every way through it, infinitely many as soon as something is
repeated.  Both say the same: the check accepts a pattern exactly if no repeated body can match nothing and
no word reads a slot that nothing before binds, and the slots that it says are bound afterwards are those
that every word binds.

A slot that every word of `a.seq b` binds is bound by every word of `a` or by every word of `b`, since the
words of the two can be chosen independently (`forall_boundBy_seq_iff`); so one set is enough behind `a`.
Rounds of a repetition start from what was bound before the first round, and any round may be the first
(`readsBound_star`); so it is enough to look at the body once.
-/

import LoopPlumbing.Proofs.Sequence.Check
import LoopPlumbing.Proofs.Sequence.Language

namespace LoopPlumbing
namespace Sequence

variable {τ ν : Type}

/-- Some predicate of the word binds the slot. -/
def BoundBy (word : List (Predicate τ ν)) (s : Slot) : Prop := ∃ p ∈ word, s ∈ p.binds

/-- A word binds what its parts bind. -/
theorem boundBy_append {u v : List (Predicate τ ν)} {s : Slot} :
    BoundBy (u ++ v) s ↔ BoundBy u s ∨ BoundBy v s := by
  simp only [BoundBy, List.mem_append, or_and_right, exists_or]

namespace Pattern

/-- Somewhere in the pattern stands the repetition of a body. -/
def Repeats : Pattern τ ν → Pattern τ ν → Prop
  | token _, _ => False
  | seq a b, body => a.Repeats body ∨ b.Repeats body
  | alt a b, body => a.Repeats body ∨ b.Repeats body
  | star a, body => body = a ∨ a.Repeats body

/-- In every word of the pattern, whatever a predicate requires is one of the slots `bound` or has been bound
by a predicate before it. -/
def ReadsBound (q : Pattern τ ν) (bound : List Slot) : Prop :=
  ∀ before p behind, before ++ p :: behind ∈ q.language →
    ∀ s ∈ p.requires, s ∈ bound ∨ BoundBy before s

/-- In some word of the pattern, a predicate requires the slot, which is not one of the slots `bound` and has
not been bound by any predicate before it. -/
def ReadsUnbound (q : Pattern τ ν) (bound : List Slot) (s : Slot) : Prop :=
  ∃ before p behind, before ++ p :: behind ∈ q.language ∧
    s ∈ p.requires ∧ s ∉ bound ∧ ¬BoundBy before s

/-- What may be wrong with a pattern if the slots `bound` are bound before it. -/
inductive HasFault (q : Pattern τ ν) (bound : List Slot) : Fault → Prop where
  /-- The body of a repetition can match nothing. -/
  | emptyRepetition {body : Pattern τ ν} (repeated : q.Repeats body) (empty : [] ∈ body.language) :
      HasFault q bound .emptyRepetition
  /-- A slot is read that is not bound. -/
  | unboundSlot {s : Slot} (reads : q.ReadsUnbound bound s) : HasFault q bound (.unboundSlot s.name)

variable {q a b : Pattern τ ν} {bound after : List Slot} {s : Slot}

/-- Every round consumes a token exactly if the empty word is no word of a repeated body. -/
theorem roundsConsume_iff :
    q.RoundsConsume ↔ ∀ body, q.Repeats body → [] ∉ body.language := by
  induction q with
  | token p => exact iff_of_true trivial fun _ h => h.elim
  | seq a b iha ihb =>
      simp only [RoundsConsume, Repeats, iha, ihb, or_imp, forall_and]
  | alt a b iha ihb =>
      simp only [RoundsConsume, Repeats, iha, ihb, or_imp, forall_and]
  | star a ih =>
      simp only [RoundsConsume, Repeats, ih, or_imp, forall_and, forall_eq, nil_mem_language_iff,
        Bool.not_eq_true]

/-! ### What is bound behind a pattern

The check gives the slots that every word binds, besides those that were bound before.
-/

section Bindings

/-- **The words of the parts of a sequence are chosen independently:** what every word binds, every word of
one part binds. -/
theorem forall_boundBy_seq_iff :
    (∀ word ∈ (a.seq b).language, BoundBy word s) ↔
      (∀ u ∈ a.language, BoundBy u s) ∨ ∀ v ∈ b.language, BoundBy v s := by
  constructor
  · intro h
    by_contra hne
    push Not at hne
    obtain ⟨⟨u, hu, hus⟩, v, hv, hvs⟩ := hne
    rcases boundBy_append.1 (h _ (mem_language_seq.2 ⟨u, hu, v, hv, rfl⟩)) with hs | hs
    · exact hus hs
    · exact hvs hs
  · rintro h word hword
    obtain ⟨u, hu, v, hv, rfl⟩ := mem_language_seq.1 hword
    exact boundBy_append.2 (h.imp (fun ha => ha u hu) fun hb => hb v hv)

/-- **What the check says is bound is what every word binds**, besides what was bound before. -/
theorem mem_after_iff (h : q.check bound = .ok after) :
    s ∈ after ↔ s ∈ bound ∨ ∀ word ∈ q.language, BoundBy word s := by
  induction q generalizing bound after with
  | token p =>
      obtain ⟨-, rfl⟩ := check_token_eq_ok.1 h
      have single : (∀ word ∈ (token p).language, BoundBy word s) ↔ s ∈ p.binds := by
        simp only [mem_language_token, forall_eq, BoundBy, List.mem_singleton, exists_eq_left]
      rw [single, List.mem_append]
  | seq a b iha ihb =>
      obtain ⟨middle, ha, hb⟩ := check_seq_eq_ok.1 h
      rw [ihb hb, iha ha, forall_boundBy_seq_iff, or_assoc]
  | alt a b iha ihb =>
      obtain ⟨left, right, ha, hb, rfl⟩ := check_alt_eq_ok.1 h
      have both : (∀ word ∈ (a.alt b).language, BoundBy word s) ↔
          (∀ word ∈ a.language, BoundBy word s) ∧ ∀ word ∈ b.language, BoundBy word s := by
        simp only [mem_language_alt, or_imp, forall_and]
      rw [List.mem_filter, decide_eq_true_iff, iha ha, ihb hb, both, or_and_left]
  | star a =>
      obtain ⟨-, -, rfl⟩ := check_star_eq_ok.1 h
      -- No round at all binds nothing.
      have none_bound : ¬∀ word ∈ a.star.language, BoundBy word s := by
        intro hs
        obtain ⟨p, hp, -⟩ := hs [] nil_mem_language_star
        exact List.not_mem_nil hp
      rw [or_iff_left none_bound]

end Bindings

/-! ### Patterns that pass -/

section Acceptance

/-- A token reads only bound slots if all that it requires is bound. -/
theorem readsBound_token {p : Predicate τ ν} (h : ∀ s ∈ p.requires, s ∈ bound) :
    (token p).ReadsBound bound := by
  intro before p' behind hword s hs
  rcases List.append_eq_singleton_iff.1 (mem_language_token.1 hword) with ⟨-, e⟩ | ⟨-, e⟩
  · obtain ⟨rfl, -⟩ := List.cons.inj e
    exact .inl (h s hs)
  · cases e

/-- A word of a sequence is read in two parts, the second with what every word of the first binds. -/
theorem readsBound_seq {middle : List Slot} (ha : a.ReadsBound bound)
    (hm : ∀ s, s ∈ middle → s ∈ bound ∨ ∀ u ∈ a.language, BoundBy u s)
    (hb : b.ReadsBound middle) : (a.seq b).ReadsBound bound := by
  intro before p behind hword s hs
  obtain ⟨u, hu, v, hv, e⟩ := mem_language_seq.1 hword
  rcases append_cons_eq_append_iff.1 e.symm with ⟨rest, rfl, -⟩ | ⟨rest, rfl, rfl⟩
  · exact ha before p rest hu s hs
  · rcases hb rest p behind hv s hs with hmid | hrest
    · exact (hm s hmid).imp id fun h => boundBy_append.2 (.inl (h u hu))
    · exact .inr (boundBy_append.2 (.inr hrest))

/-- What is bound in a round before may be forgotten. -/
theorem readsBound_star (ha : a.ReadsBound bound) : a.star.ReadsBound bound := by
  intro before p behind hword s hs
  obtain ⟨rounds, e, all⟩ := mem_language_star.1 hword
  obtain ⟨done, begun, rest, hround, rfl⟩ := exists_round_of_flatten_eq e.symm
  exact (ha begun p rest (all _ hround) s hs).imp id fun h => boundBy_append.2 (.inr h)

/-- **A pattern that passes the check reads bound slots only**, in every word. -/
theorem readsBound_of_check (h : q.check bound = .ok after) : q.ReadsBound bound := by
  induction q generalizing bound after with
  | token p => exact readsBound_token (check_token_eq_ok.1 h).1
  | seq a b iha ihb =>
      obtain ⟨middle, ha, hb⟩ := check_seq_eq_ok.1 h
      exact readsBound_seq (iha ha) (fun s => (mem_after_iff ha).1) (ihb hb)
  | alt a b iha ihb =>
      obtain ⟨left, right, ha, hb, -⟩ := check_alt_eq_ok.1 h
      intro before p behind hword
      rcases mem_language_alt.1 hword with hword | hword
      · exact iha ha before p behind hword
      · exact ihb hb before p behind hword
  | star a ih =>
      obtain ⟨-, ⟨inner, ha⟩, -⟩ := check_star_eq_ok.1 h
      exact readsBound_star (ih ha)

end Acceptance

/-! ### Patterns that fail

A fault names a slot, and there is a word that comes to a predicate which requires this slot before anything has bound
it.
-/

section Rejection

/-- A pattern that reads an unbound slot does not read bound slots only. -/
theorem ReadsUnbound.not_readsBound (h : q.ReadsUnbound bound s) : ¬q.ReadsBound bound := by
  obtain ⟨before, p, behind, hword, hs, out, unbound⟩ := h
  exact fun reads => (reads before p behind hword s hs).elim out unbound

/-- A part of a sequence is on the way of a word of the whole. -/
theorem ReadsUnbound.seq_left (h : a.ReadsUnbound bound s) (b : Pattern τ ν) :
    (a.seq b).ReadsUnbound bound s := by
  obtain ⟨before, p, behind, hword, hs, unbound⟩ := h
  obtain ⟨v, hv⟩ := exists_mem_language b
  refine ⟨before, p, behind ++ v, mem_language_seq.2 ⟨_, hword, v, hv, ?_⟩, hs, unbound⟩
  rw [List.append_assoc, List.cons_append]

/-- If a slot is not bound behind `a`, some word of `a` leaves it unbound. -/
theorem ReadsUnbound.seq_right {middle : List Slot} (h : b.ReadsUnbound middle s)
    (hm : s ∈ bound ∨ (∀ u ∈ a.language, BoundBy u s) → s ∈ middle) :
    (a.seq b).ReadsUnbound bound s := by
  obtain ⟨before, p, behind, hword, hs, out, unbound⟩ := h
  have open_word : s ∉ bound ∧ ∃ u ∈ a.language, ¬BoundBy u s := by
    have := mt hm out
    push Not at this
    exact this
  obtain ⟨hbound, u, hu, hus⟩ := open_word
  refine ⟨u ++ before, p, behind, mem_language_seq.2 ⟨u, hu, _, hword, ?_⟩, hs, hbound, ?_⟩
  · rw [List.append_assoc]
  · exact fun h => (boundBy_append.1 h).elim hus unbound

/-- If all words of a pattern are words of another, the other reads what the one reads. -/
theorem ReadsUnbound.mono {r : Pattern τ ν} (h : q.ReadsUnbound bound s)
    (sub : ∀ word ∈ q.language, word ∈ r.language) : r.ReadsUnbound bound s := by
  obtain ⟨before, p, behind, hword, rest⟩ := h
  exact ⟨before, p, behind, sub _ hword, rest⟩

/-- The faults of a part are faults of the whole if its repetitions and its unbound slots are. -/
theorem HasFault.imp {r : Pattern τ ν} {bound' : List Slot} {fault : Fault} (h : q.HasFault bound fault)
    (repeats : ∀ body, q.Repeats body → r.Repeats body)
    (reads : ∀ s, q.ReadsUnbound bound s → r.ReadsUnbound bound' s) : r.HasFault bound' fault := by
  cases h with
  | emptyRepetition repeated empty => exact .emptyRepetition (repeats _ repeated) empty
  | unboundSlot unbound => exact .unboundSlot (reads _ unbound)

/-- **What the check complains about is there.** -/
theorem hasFault_of_check {fault : Fault} (h : q.check bound = .error fault) :
    q.HasFault bound fault := by
  induction q generalizing bound with
  | token p =>
      obtain ⟨s, hs, out, rfl⟩ := exists_of_check_token_eq_error h
      exact .unboundSlot ⟨[], p, [], rfl, hs, out, fun ⟨_, hp, _⟩ => List.not_mem_nil hp⟩
  | seq a b iha ihb =>
      rcases check_seq_eq_error.1 h with ha | ⟨middle, ha, hb⟩
      · exact (iha ha).imp (fun _ => .inl) fun s reads => reads.seq_left b
      · exact (ihb hb).imp (fun _ => .inr) fun s reads => reads.seq_right (mem_after_iff ha).2
  | alt a b iha ihb =>
      rcases check_alt_eq_error.1 h with ha | ⟨left, -, hb⟩
      · exact (iha ha).imp (fun _ => .inl) fun s reads =>
          reads.mono fun _ hw => mem_language_alt.2 (.inl hw)
      · exact (ihb hb).imp (fun _ => .inr) fun s reads =>
          reads.mono fun _ hw => mem_language_alt.2 (.inr hw)
  | star a ih =>
      rw [check_star_eq_error] at h
      split at h
      · next hn => exact h ▸ .emptyRepetition (.inl rfl) ((nil_mem_language_iff a).2 hn)
      · exact (ih h).imp (fun _ => .inr) fun s reads => reads.mono fun _ => mem_language_star_of_mem

end Rejection

/-- **The check from any slots accepts exactly the patterns without a fault.** -/
theorem exists_check_eq_ok_iff :
    (∃ after, q.check bound = .ok after) ↔
      (∀ body, q.Repeats body → [] ∉ body.language) ∧ q.ReadsBound bound := by
  constructor
  · rintro ⟨after, h⟩
    exact ⟨roundsConsume_iff.1 (roundsConsume_of_check h), readsBound_of_check h⟩
  · rintro ⟨consume, reads⟩
    cases h : q.check bound with
    | ok after => exact ⟨after, rfl⟩
    | error fault =>
        cases hasFault_of_check h with
        | emptyRepetition repeated empty => exact absurd empty (consume _ repeated)
        | unboundSlot unbound => exact absurd reads unbound.not_readsBound

/-- More bound slots do no harm. -/
theorem ReadsBound.mono {more : List Slot} (h : q.ReadsBound bound) (sub : ∀ s ∈ bound, s ∈ more) :
    q.ReadsBound more :=
  fun before p behind hword s hs => (h before p behind hword s hs).imp (sub s) id

/-- **Compiling is an exact check of definite assignment.**  A pattern, whatever its predicates declare,
compiles exactly if the empty word is no word of a repeated body and in every word each slot that a predicate
requires is bound by a predicate before it.  If it does not compile, the fault that is named is there.  And
the check from any slots says that those slots are bound afterwards and the slots that every word binds; it
succeeds from any slots for a pattern that compiles. -/
theorem compile_iff_definitely_assigned (q : Pattern τ ν) (options : Options τ ν) :
    ((∃ m, q.compile options = .ok m) ↔
      (∀ body, q.Repeats body → [] ∉ body.language) ∧ q.ReadsBound []) ∧
    (∀ fault, q.compile options = .error fault → q.HasFault [] fault) ∧
    ∀ bound, ((∃ m, q.compile options = .ok m) → ∃ after, q.check bound = .ok after) ∧
      ∀ after, q.check bound = .ok after →
        ∀ s, s ∈ after ↔ s ∈ bound ∨ ∀ word ∈ q.language, BoundBy word s := by
  refine ⟨exists_compile_eq_ok.trans exists_check_eq_ok_iff,
    fun fault h => hasFault_of_check (compile_eq_error.1 h),
    fun bound => ⟨fun h => ?_, fun after h s => mem_after_iff h⟩⟩
  obtain ⟨consume, reads⟩ := exists_check_eq_ok_iff.1 (exists_compile_eq_ok.1 h)
  exact exists_check_eq_ok_iff.2 ⟨consume, reads.mono fun s hs => absurd hs List.not_mem_nil⟩

end Pattern
end Sequence
end LoopPlumbing
