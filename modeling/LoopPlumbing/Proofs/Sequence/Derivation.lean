/- # Matches are derivations

What a pattern means, said without the engine: a derivation picks a branch of each alternation and a number
of rounds of each repetition, and so reads a word of predicates off the pattern; it is a match if the word
can be threaded through the tokens.  A derivation is data, so two ways of reading one word off a pattern
are two derivations.

The engine lists exactly one context for each derivation that is a match, the one that is left when its
word has been threaded.  For a pattern within a larger one this is `enumerates_ends`, by induction on the
pattern; a repetition is its unfolding, where a derivation is either ended or a round and then a derivation
again.

The order of the list is left open, and its multiplicity is not: two derivations that leave equal contexts are
listed twice, and `Enumerates` counts them by their derivations.
-/

import LoopPlumbing.Proofs.Enumeration
import LoopPlumbing.Proofs.Sequence.Check
import LoopPlumbing.Proofs.Sequence.Search
import LoopPlumbing.Proofs.Sequence.Walk
import Mathlib.Data.Prod.Basic

namespace LoopPlumbing
namespace Sequence

variable {τ ν : Type}

/-! ### Derivations

A derivation is a word of the pattern together with how the pattern makes it.  One word may have several
derivations, and the engine lists a context for each.
-/

/-- A way of reading a word off a pattern. -/
inductive Derivation : Pattern τ ν → Type where
  | token (p : Predicate τ ν) : Derivation (.token p)
  | seq {a b : Pattern τ ν} (first : Derivation a) (second : Derivation b) : Derivation (.seq a b)
  | left {a b : Pattern τ ν} (d : Derivation a) : Derivation (.alt a b)
  | right {a b : Pattern τ ν} (d : Derivation b) : Derivation (.alt a b)
  /-- No more rounds. -/
  | ended {a : Pattern τ ν} : Derivation (.star a)
  /-- One round, and what follows it. -/
  | round {a : Pattern τ ν} (first : Derivation a) (rest : Derivation (.star a)) : Derivation (.star a)

/-- The word that is read. -/
def Derivation.word : {q : Pattern τ ν} → Derivation q → List (Predicate τ ν)
  | _, token p => [p]
  | _, seq first second => first.word ++ second.word
  | _, left d => d.word
  | _, right d => d.word
  | _, ended => []
  | _, round first rest => first.word ++ rest.word

/-- The derivation `d`, laid against the stream from the position `start` on, is a match that leaves the
context `e`.  When every start is tried, it may start at each token that is not passed over and behind the
last one, must be threaded through as many tokens as its word is long, and leaves the cursor at the end of
the stream; otherwise it starts where the first tokens have been passed over and must be threaded through
all the tokens that remain. -/
def Matcher.Derives (m : Matcher τ ν) (stream : List τ) (c : Context τ ν) (start : ℕ)
    (d : Derivation m.pattern) (e : Context τ ν) : Prop :=
  let c := (if m.options.debug then c.withDebug true else c).moveTo start
  let tokens := remaining m.options.ignores stream start
  if m.options.scanAllOffsets then
    start ≤ stream.length ∧
      (∀ t, stream[start]? = some t → (isIgnored m.options.ignores t).value = false) ∧
      ∃ f, thread d.word (tokens.take d.word.length) c = some f ∧ e = f.moveTo stream.length
  else
    start = (skipIgnored m.options.ignores stream 0).value ∧ thread d.word tokens c = some e

/-! ### Ends, one by one

The words of a derivation are threaded through the stream, and each lemma enumerates the ends of a pattern by the
derivations of its parts.
-/

section Ends

variable {ignores : Predicate τ ν} {stream : List τ}

/-- A token has one derivation, and it leads to one end or to none. -/
theorem enumerates_ends_token (p : Predicate τ ν) (c : Context τ ν) :
    Enumerates (fun (d : Derivation (.token p)) e => walk ignores stream d.word c = some e)
      ((Pattern.token p).ends ignores stream c).value := by
  rw [value_ends_token, value_tokenEnds]
  refine (Enumerates.toList (Derivation.token p) _).congr fun d e => ?_
  cases d
  exact and_iff_right rfl

/-- The ends of a sequence are enumerated by pairs of derivations. -/
theorem enumerates_ends_seq {a b : Pattern τ ν} (c : Context τ ν)
    (ha : Enumerates (fun (d : Derivation a) e => walk ignores stream d.word c = some e)
      (a.ends ignores stream c).value)
    (hb : ∀ c, Enumerates (fun (d : Derivation b) e => walk ignores stream d.word c = some e)
      (b.ends ignores stream c).value) :
    Enumerates (fun (d : Derivation (a.seq b)) e => walk ignores stream d.word c = some e)
      ((a.seq b).ends ignores stream c).value := by
  rw [value_ends_seq]
  have pair : Function.Injective fun x : Derivation a × Derivation b => Derivation.seq x.1 x.2 := by
    rintro ⟨x, y⟩ ⟨x', y'⟩ h
    cases h
    rfl
  refine ((ha.bind fun e _ => hb e).reindex pair).congr fun d e => ?_
  constructor
  · rintro ⟨x, ⟨m, hx, hy⟩, rfl⟩
    rw [Derivation.word, walk_append, hx]
    exact hy
  · cases d with
    | seq first second =>
        intro h
        rw [Derivation.word, walk_append] at h
        obtain ⟨m, hx, hy⟩ := Option.bind_eq_some_iff.1 h
        exact ⟨(first, second), ⟨m, hx, hy⟩, rfl⟩

/-- The ends of an alternation are enumerated by the derivations of the left part and then those of the right. -/
theorem enumerates_ends_alt {a b : Pattern τ ν} (c : Context τ ν)
    (ha : Enumerates (fun (d : Derivation a) e => walk ignores stream d.word c = some e)
      (a.ends ignores stream c).value)
    (hb : Enumerates (fun (d : Derivation b) e => walk ignores stream d.word c = some e)
      (b.ends ignores stream c).value) :
    Enumerates (fun (d : Derivation (a.alt b)) e => walk ignores stream d.word c = some e)
      ((a.alt b).ends ignores stream c).value := by
  rw [value_ends_alt]
  have left : Function.Injective (@Derivation.left τ ν a b) := fun _ _ h => Derivation.left.inj h
  have right : Function.Injective (@Derivation.right τ ν a b) := fun _ _ h => Derivation.right.inj h
  refine ((ha.reindex left).append (hb.reindex right) ?_).congr fun d e => ?_
  · rintro d e e' ⟨x, -, rfl⟩ ⟨y, -, h⟩
    cases h
  constructor
  · rintro (⟨x, h, rfl⟩ | ⟨x, h, rfl⟩) <;> exact h
  · cases d with
    | left d => exact fun h => .inl ⟨d, h, rfl⟩
    | right d => exact fun h => .inr ⟨d, h, rfl⟩

/-- The ends of a repetition are enumerated by sequences of derivations of its body.  The body is not nullable, so
each round moves the cursor and none is dropped by the test for progress. -/
theorem enumerates_ends_star {a : Pattern τ ν} (c : Context τ ν) (hn : a.nullable = false)
    (ha : ∀ c, Enumerates (fun (d : Derivation a) e => walk ignores stream d.word c = some e)
      (a.ends ignores stream c).value) :
    Enumerates (fun (d : Derivation a.star) e => walk ignores stream d.word c = some e)
      (a.star.ends ignores stream c).value := by
  induction c using star_induction ignores stream a with
  | step c ih =>
      rw [value_ends_star_eq]
      rw [advances_eq_reverse hn] at ih ⊢
      have pair : Function.Injective fun x : Derivation a × Derivation a.star =>
          Derivation.round x.1 x.2 := by
        rintro ⟨x, y⟩ ⟨x', y'⟩ h
        cases h
        rfl
      have first := Enumerates.singleton (Derivation.ended (a := a)) c
      refine (first.append (((ha c).reverse.bind ih).reindex pair) ?_).congr fun d e => ?_
      · rintro d e e' ⟨rfl, -⟩ ⟨x, -, h⟩
        cases h
      constructor
      · rintro (⟨rfl, rfl⟩ | ⟨x, ⟨m, hx, hy⟩, rfl⟩)
        · rfl
        · rw [Derivation.word, walk_append, hx]
          exact hy
      · cases d with
        | ended => exact fun h => .inl ⟨rfl, (Option.some.inj h).symm⟩
        | round first rest =>
            intro h
            rw [Derivation.word, walk_append] at h
            obtain ⟨m, hx, hy⟩ := Option.bind_eq_some_iff.1 h
            exact .inr ⟨(first, rest), ⟨m, hx, hy⟩, rfl⟩

/-- **The engine and the derivations agree on every pattern whose rounds consume tokens.** -/
theorem enumerates_ends {q : Pattern τ ν} (hq : q.RoundsConsume) (c : Context τ ν) :
    Enumerates (fun (d : Derivation q) e => walk ignores stream d.word c = some e)
      (q.ends ignores stream c).value := by
  induction q generalizing c with
  | token p => exact enumerates_ends_token p c
  | seq a b iha ihb => exact enumerates_ends_seq c (iha hq.1 c) (ihb hq.2)
  | alt a b iha ihb => exact enumerates_ends_alt c (iha hq.1 c) (ihb hq.2 c)
  | star a ih => exact enumerates_ends_star c hq.1 (ih hq.2)

end Ends

/-! ### Searches -/

section Searches

variable {q : Pattern τ ν} {ignores : Predicate τ ν} {stream : List τ} {c : Context τ ν}

/-- A scan enumerates a start together with a derivation threaded from there. -/
theorem enumerates_scan (hq : q.RoundsConsume) :
    Enumerates
      (fun (x : ℕ × Derivation q) e => x.1 ∈ starts ignores stream ∧
        ∃ f, walk ignores stream x.2.word (c.moveTo x.1) = some f ∧ e = f.moveTo stream.length)
      (q.scan ignores stream c).value := by
  rw [value_scan]
  refine ((Enumerates.of_nodup (nodup_starts ignores stream)).bind fun i _ =>
    (enumerates_ends hq (c.moveTo i)).map (·.moveTo stream.length)).congr fun x e => ?_
  constructor
  · rintro ⟨i, ⟨hi, rfl⟩, h⟩
    exact ⟨hi, h⟩
  · rintro ⟨hi, h⟩
    exact ⟨x.1, ⟨hi, rfl⟩, h⟩

/-- A span enumerates the derivations that thread all tokens that are not passed over. -/
theorem enumerates_span (hq : q.RoundsConsume) :
    Enumerates
      (fun (d : Derivation q) e =>
        thread d.word (remaining ignores stream (skipIgnored ignores stream 0).value)
          (c.moveTo (skipIgnored ignores stream 0).value) = some e)
      (q.span ignores stream c).value := by
  rw [value_span]
  have inside : (skipIgnored ignores stream 0).value ≤ stream.length := skipIgnored_le (Nat.zero_le _)
  generalize (skipIgnored ignores stream 0).value = start at inside ⊢
  refine ((enumerates_ends hq (c.moveTo start)).filter _).congr fun d e => ?_
  rw [beq_iff_eq]
  refine (and_congr_right fun h => ?_).trans thread_remaining_eq_some.symm
  have le : e.position ≤ max start stream.length := position_le_of_walk_eq_some h
  exact (remaining_eq_nil_iff (by omega)).symm

end Searches

/-- **A matcher lists one context for each derivation.**  For every matcher, hence every pattern that the
check accepts, every stream and every context to start from, the contexts that the matcher lists are, one
for each start and derivation that together are a match, the context that the match leaves. -/
theorem contexts_enumerate_derivations (m : Matcher τ ν) (stream : List τ) (c : Context τ ν) :
    Enumerates (fun (x : ℕ × Derivation m.pattern) e => m.Derives stream c x.1 x.2 e)
      (m.contexts stream c).value := by
  obtain ⟨bound, hbound⟩ := m.checked
  have hq := Pattern.roundsConsume_of_check hbound
  unfold Matcher.contexts Matcher.Derives
  generalize (if m.options.debug then c.withDebug true else c) = c
  cases m.options.scanAllOffsets with
  | true =>
      refine (enumerates_scan hq).congr fun x e => ?_
      have inside : x.1 ∈ starts m.options.ignores stream ↔ x.1 ≤ stream.length ∧
          ∀ t, stream[x.1]? = some t → (isIgnored m.options.ignores t).value = false := by
        rw [mem_starts, mayStart_iff]
      rw [inside, and_assoc]
      rfl
  | false =>
      refine ((enumerates_span hq).reindex
        (Prod.mk_right_injective (skipIgnored m.options.ignores stream 0).value)).congr fun x e => ?_
      constructor
      · rintro ⟨d, h, rfl⟩
        exact ⟨rfl, h⟩
      · obtain ⟨start, d⟩ := x
        rintro ⟨rfl, h⟩
        exact ⟨d, h, rfl⟩

end Sequence
end LoopPlumbing
