/- # A scan is a span with anything around the pattern

`q.anywhere` is `q` with any number of tokens before and behind it.  Spanning a stream with it finds what
scanning for `q` finds, in the same order.  The tokens before `q` lead to every position at which a scan
starts, once each (`map_settle_ends_any_star`), except that the cursor may stand on tokens that are still to
be passed over; this makes no difference to where `q` ends (`map_moveTo_ends_settle`).  Of the ways to go on
with the tokens behind `q`, exactly one reaches the end of the stream (`filter_ends_any_star`).
-/

import LoopPlumbing.Proofs.Sequence.Search
import LoopPlumbing.Proofs.Sequence.Simulation
import LoopPlumbing.Proofs.Sequence.Walk

namespace LoopPlumbing
namespace Sequence

open List (Forall₂)

variable {τ ν : Type}

/-- Any tokens, the pattern, any tokens. -/
def Pattern.anywhere (q : Pattern τ ν) : Pattern τ ν := (any.star.seq q).thenStar any

/-- The same context with the cursor on the next token that is not passed over. -/
def Context.settle (ignores : Predicate τ ν) (stream : List τ) (c : Context τ ν) : Context τ ν :=
  c.moveTo (skipIgnored ignores stream c.position).value

/-- Any tokens around a pattern bind nothing and require nothing, so the check goes through as it did. -/
theorem Pattern.check_anywhere {q : Pattern τ ν} {bound after : List Slot}
    (h : q.check bound = .ok after) : q.anywhere.check bound = .ok after := by
  have any_star : ∀ bound, (any : Pattern τ ν).star.check bound = .ok bound := fun _ => rfl
  exact check_seq_eq_ok.2 ⟨after, check_seq_eq_ok.2 ⟨bound, any_star bound, h⟩, any_star after⟩

/-! ### Tokens still to be passed over

Two contexts that differ only in how many of the tokens to be passed over lie behind the cursor are settled alike, and
whatever begins with a token ends alike from both.
-/

section Settled

variable {ignores : Predicate τ ν} {stream : List τ}

/-- Behind the tokens that are passed over there is none left to pass over. -/
theorem skipIgnored_skipIgnored (position : ℕ) :
    (skipIgnored ignores stream (skipIgnored ignores stream position).value).value =
      (skipIgnored ignores stream position).value := by
  obtain ⟨-, kept⟩ := skipIgnored_spec ignores stream position
  generalize (skipIgnored ignores stream position).value = i at kept ⊢
  by_cases h : i < stream.length
  · exact (remaining_of_kept h (kept h)).2
  · exact skipIgnored_of_length_le (by omega)

/-- A token ends alike from contexts that differ in tokens still to be passed over. -/
theorem value_tokenEnds_congr (p : Predicate τ ν) {c d : Context τ ν}
    (h : c.settle ignores stream = d.settle ignores stream) :
    (tokenEnds ignores stream p c).value = (tokenEnds ignores stream p d).value := by
  have moved : ∀ i, c.moveTo i = d.moveTo i := fun i => congrArg (·.moveTo i) h
  have next : (skipIgnored ignores stream c.position).value =
      (skipIgnored ignores stream d.position).value := congrArg Context.position h
  rw [value_tokenEnds, value_tokenEnds, walk_cons, walk_cons,
    ← (skipIgnored_spec ignores stream c.position).1, next, (skipIgnored_spec ignores stream d.position).1]
  simp only [moved]

/-- **Tokens still to be passed over make no difference**, except to the cursor. -/
theorem map_moveTo_ends_settle {q : Pattern τ ν} (hq : q.RoundsConsume) (c : Context τ ν) (stop : ℕ) :
    (q.ends ignores stream (c.settle ignores stream)).value.map (·.moveTo stop) =
      (q.ends ignores stream c).value.map (·.moveTo stop) := by
  have settled : (c.settle ignores stream).settle ignores stream = c.settle ignores stream :=
    congrArg c.moveTo (skipIgnored_skipIgnored c.position)
  have alike : Forall₂ (fun d e => d.settle ignores stream = e.settle ignores stream)
      (q.ends ignores stream (c.settle ignores stream)).value (q.ends ignores stream c).value := by
    refine forall₂_ends hq (fun p _ d e h => ?_) settled
    rw [value_tokenEnds_congr p h]
    exact List.forall₂_same.2 fun _ _ => rfl
  rw [← List.forall₂_eq_eq_eq, List.forall₂_map_left_iff, List.forall₂_map_right_iff]
  exact alike.imp fun d e h => congrArg (·.moveTo stop) h

end Settled

/-! ### Any tokens

Repeated any number of times, the pattern that takes one token stops behind each token that is not passed over, the
nearest one first.
-/

section AnyTokens

variable (ignores : Predicate τ ν) (stream : List τ)

/-- **Exactly one number of tokens reaches the end of the stream.** -/
theorem filter_ends_any_star {c : Context τ ν} (h : c.position ≤ stream.length) :
    ((Pattern.any.star.ends ignores stream c).value.filter fun d =>
        (skipIgnored ignores stream d.position).value == stream.length).map (·.moveTo stream.length) =
      [c.moveTo stream.length] := by
  rw [value_ends_any_star]
  induction hr : remaining ignores stream c.position generalizing c with
  | nil =>
      have spans : (skipIgnored ignores stream c.position).value = stream.length :=
        (remaining_eq_nil_iff h).1 hr
      rw [List.map_nil, List.filter_singleton, spans, beq_self_eq_true]
      rfl
  | cons x tokens ih =>
      have inside : x.2 < stream.length := lt_length_of_mem_remaining (hr ▸ List.mem_cons_self)
      have stops : (skipIgnored ignores stream c.position).value ≠ stream.length := fun e =>
        List.cons_ne_nil _ _ (hr.symm.trans ((remaining_eq_nil_iff h).2 e))
      rw [List.filter_cons_of_neg (by simpa using stops)]
      exact ih (c := c.moveTo (x.2 + 1)) inside (remaining_succ hr)

/-- A scan starts at the remaining tokens and at the end of the stream. -/
theorem starts_eq_remaining :
    starts ignores stream = (remaining ignores stream 0).map Prod.snd ++ [stream.length] := by
  have last : mayStart ignores stream stream.length = true := by
    rw [mayStart_iff, List.getElem?_eq_none le_rfl]
    exact fun _ h => absurd h (by simp)
  have inside : (List.range stream.length).filter (mayStart ignores stream) =
      (remaining ignores stream 0).map Prod.snd := by
    rw [List.range_eq_range', ← List.zipIdx_map_snd, List.filter_map, remaining, List.drop_zero]
    refine congrArg (List.map Prod.snd) (List.filter_congr fun x hx => ?_)
    rw [Function.comp_apply, mayStart, List.mk_mem_zipIdx_iff_getElem?.1 hx]
    rfl
  rw [starts, List.range_succ, List.filter_append, inside, List.filter_singleton, last]
  rfl

/-- Each position at which a scan starts is the next one behind some remaining token, but for the first. -/
theorem skipIgnored_cons_remaining {position : ℕ} (h : position ≤ stream.length) :
    (skipIgnored ignores stream position).value ::
        (remaining ignores stream position).map (fun x => (skipIgnored ignores stream (x.2 + 1)).value) =
      (remaining ignores stream position).map Prod.snd ++ [stream.length] := by
  induction hr : remaining ignores stream position generalizing position with
  | nil =>
      rw [(remaining_eq_nil_iff h).1 hr]
      rfl
  | cons x tokens ih =>
      have inside := lt_length_of_mem_remaining (hr ▸ List.mem_cons_self)
      have first : (skipIgnored ignores stream position).value = x.2 := by
        rw [remaining_eq] at hr
        split at hr
        · cases hr
        · cases hr
          rfl
      rw [first, List.map_cons, List.map_cons, List.cons_append, ih inside (remaining_succ hr)]

/-- **The tokens before a pattern lead to each start of a scan.** -/
theorem map_settle_ends_any_star (c : Context τ ν) :
    (Pattern.any.star.ends ignores stream
        (c.moveTo (skipIgnored ignores stream 0).value)).value.map (·.settle ignores stream) =
      (starts ignores stream).map c.moveTo := by
  rw [starts_eq_remaining, ← skipIgnored_cons_remaining ignores stream (Nat.zero_le _),
    ← (skipIgnored_spec ignores stream 0).1, value_ends_any_star, List.map_cons, List.map_cons,
    List.map_map, List.map_map]
  exact congrArg (c.moveTo · :: _) (skipIgnored_skipIgnored 0)

end AnyTokens

/-! ### Both searches

With any tokens in front the match may start where a scan would start it, and with any tokens behind it always reaches
the end.
-/

section Searches

variable {ignores : Predicate τ ν} {stream : List τ}

/-- From a context within the stream, the pattern and then as many tokens as are left. -/
theorem flatMap_filter_ends_any_star (q : Pattern τ ν) {c : Context τ ν} (h : c.position ≤ stream.length) :
    ((q.ends ignores stream c).value.flatMap fun d =>
        ((Pattern.any.star.ends ignores stream d).value.filter fun e =>
          (skipIgnored ignores stream e.position).value == stream.length).map (·.moveTo stream.length)) =
      (q.ends ignores stream c).value.map (·.moveTo stream.length) := by
  rw [List.map_eq_flatMap]
  refine List.flatMap_congr fun d hd => filter_ends_any_star ignores stream ?_
  have := (position_le_of_mem_ends q hd).2
  omega

/-- **Spanning with anything around the pattern finds what scanning finds.** -/
theorem map_moveTo_span_anywhere {q : Pattern τ ν} (hq : q.RoundsConsume) (c : Context τ ν) :
    (q.anywhere.span ignores stream c).value.map (·.moveTo stream.length) =
      (q.scan ignores stream c).value := by
  have start_le : (skipIgnored ignores stream 0).value ≤ stream.length := skipIgnored_le (Nat.zero_le _)
  have before := map_settle_ends_any_star ignores stream c
  rw [value_span, value_scan, Pattern.anywhere, Pattern.thenStar, value_ends_seq, value_ends_seq]
  generalize (skipIgnored ignores stream 0).value = start at start_le before ⊢
  rw [List.filter_flatMap, List.map_flatMap, List.flatMap_assoc]
  calc (Pattern.any.star.ends ignores stream (c.moveTo start)).value.flatMap (fun d =>
        (q.ends ignores stream d).value.flatMap fun e =>
          ((Pattern.any.star.ends ignores stream e).value.filter fun f =>
            (skipIgnored ignores stream f.position).value == stream.length).map (·.moveTo stream.length))
    _ = (Pattern.any.star.ends ignores stream (c.moveTo start)).value.flatMap fun d =>
          (q.ends ignores stream (d.settle ignores stream)).value.map (·.moveTo stream.length) := by
        refine List.flatMap_congr fun d hd => ?_
        have : d.position ≤ max start stream.length := (position_le_of_mem_ends _ hd).2
        rw [flatMap_filter_ends_any_star q (by omega), map_moveTo_ends_settle hq]
    _ = ((starts ignores stream).map c.moveTo).flatMap fun d =>
          (q.ends ignores stream d).value.map (·.moveTo stream.length) := by
        rw [← before, List.flatMap_map]
    _ = _ := List.flatMap_map _ _ _

/-- **A scan is a span with anything around the pattern.**  If a pattern compiles, so does the pattern with any
tokens before and behind it, and spanning with the latter lists what scanning for the former lists, in the
same order and as often, if the cursor is put at the end of the stream, where a scan leaves it.  This holds
for every choice of tokens to be passed over, traced or not, and also if the pattern can match nothing. -/
theorem contexts_eq_map_contexts_anywhere {q : Pattern τ ν} {ignores : Predicate τ ν} {debug : Bool}
    {m : Matcher τ ν} (h : q.compile ⟨ignores, true, debug⟩ = .ok m) :
    ∃ w, q.anywhere.compile ⟨ignores, false, debug⟩ = .ok w ∧ ∀ stream,
      (∀ c, (m.contexts stream c).value = (w.contexts stream c).value.map (·.moveTo stream.length)) ∧
      (m.accepts stream).value = (w.accepts stream).value := by
  obtain ⟨rfl, hoptions⟩ := Pattern.compile_eq_ok.1 h
  obtain ⟨bound, checked⟩ := m.checked
  let w : Matcher τ ν := ⟨m.pattern.anywhere, ⟨ignores, false, debug⟩, bound, Pattern.check_anywhere checked⟩
  have same : ∀ stream c, (m.contexts stream c).value =
      (w.contexts stream c).value.map (·.moveTo stream.length) := by
    intro stream c
    have hq := Pattern.roundsConsume_of_check checked
    rw [Matcher.contexts, hoptions]
    exact (map_moveTo_span_anywhere hq _).symm
  refine ⟨w, Pattern.compile_eq_ok.2 ⟨rfl, rfl⟩, fun stream => ⟨same stream, ?_⟩⟩
  rw [Matcher.accepts, Matcher.accepts, Logged.value_map, Logged.value_map, same, List.isEmpty_map]

/-- As many letters as there are, each recorded. -/
def letters : Pattern Char Char := (Pattern.token .recording).star

/-- In `_a_` with the dashes passed over, letters are found three times: none or one from `a` on, and none at
the end. -/
theorem contexts_letters :
    ∃ m, letters.compile ⟨.satisfying (· = '_'), true, false⟩ = .ok m ∧
      (m.contexts ['_', 'a', '_'] .start).value.map (·.recorded) = [[], ['a'], []] ∧
      ∃ w, letters.anywhere.compile ⟨.satisfying (· = '_'), false, false⟩ = .ok w ∧ ∀ stream,
        (∀ c, (m.contexts stream c).value =
          (w.contexts stream c).value.map (·.moveTo stream.length)) ∧
        (m.accepts stream).value = (w.accepts stream).value :=
  ⟨⟨letters, ⟨.satisfying (· = '_'), true, false⟩, _, rfl⟩, rfl, by decide,
    contexts_eq_map_contexts_anywhere rfl⟩

end Searches

end Sequence
end LoopPlumbing
