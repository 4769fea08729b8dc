/- # Tokens that are passed over do not matter

A matcher that does not look at the cursor finds the same in a stream and in what is kept of it when the
tokens that are passed over have been deleted, whether it scans or spans (`map_moveTo_contexts_kept`); so any
number of such tokens may be inserted anywhere.

No predicate is ever tested on a token that is passed over: the tests may be spoiled there in any way, and
nothing that is listed or reported changes (`ends_spoil`).
-/

import LoopPlumbing.Proofs.Interleaving
import LoopPlumbing.Proofs.Sequence.Transparency

namespace LoopPlumbing
namespace Sequence

variable {τ ν : Type}

/-! ### Spanning what is kept

A position and its rank are at the end together, so a match spans the stream exactly if it spans what is kept of it.
-/

section Span

variable {ignores : Predicate τ ν} {stream : List τ}

/-- Passing over tokens does not change the rank. -/
theorem rank_skipIgnored (position : ℕ) :
    rank ignores stream (skipIgnored ignores stream position).value =
      rank ignores stream position := by
  have first := List.prefix_iff_eq_take.1
    (List.takeWhile_prefix (fun t => (isIgnored ignores t).value) (l := stream.drop position))
  have gone : kept ignores ((stream.drop position).takeWhile fun t => (isIgnored ignores t).value) = [] :=
    List.filter_eq_nil_iff.2 fun t ht => by simp [List.all_eq_true.1 List.all_takeWhile t ht]
  rw [value_skipIgnored, rank, rank, List.take_add, ← first, kept, List.filter_append]
  exact congrArg List.length ((congrArg _ gone).trans (List.append_nil _))

/-- In what is kept, the cursor always stands on a token that is not passed over, or at the end. -/
theorem skipIgnored_kept (position : ℕ) :
    (skipIgnored ignores (kept ignores stream) position).value = position := by
  by_cases h : position < (kept ignores stream).length
  · exact (remaining_of_kept h (isIgnored_of_mem_kept (List.getElem_mem h))).2
  · exact skipIgnored_of_length_le (by omega)

/-- No position has more kept tokens before it than there are in all. -/
theorem rank_le (position : ℕ) : rank ignores stream position ≤ (kept ignores stream).length :=
  ((List.take_sublist position stream).filter _).length_le

/-- Passing over leads to the end of both streams or of neither. -/
theorem rank_eq_length_kept_iff {position : ℕ} (h : position ≤ stream.length) :
    rank ignores stream position = (kept ignores stream).length ↔
      (skipIgnored ignores stream position).value = stream.length := by
  have both : remaining ignores (kept ignores stream) (rank ignores stream position) = [] ↔ _ :=
    remaining_eq_nil_iff (rank_le position)
  rw [skipIgnored_kept, remaining_kept, List.map_eq_nil_iff] at both
  exact both.symm.trans (remaining_eq_nil_iff h)

/-- **A span finds the same in the stream and in what is kept of it.** -/
theorem value_span_kept {q : Pattern τ ν} (hb : q.Blind) (hq : q.RoundsConsume) (c : Context τ ν) :
    (q.span ignores (kept ignores stream) c).value =
      (q.span ignores stream c).value.map (·.sink ignores stream) := by
  have start_le : (skipIgnored ignores stream 0).value ≤ stream.length := skipIgnored_le (Nat.zero_le _)
  have front : rank ignores stream (skipIgnored ignores stream 0).value = 0 := rank_skipIgnored 0
  rw [value_span, value_span]
  simp only [skipIgnored_kept]
  generalize (skipIgnored ignores stream 0).value = start at start_le front
  have sunk : c.moveTo 0 = (c.moveTo start).sink ignores stream := congrArg c.moveTo front.symm
  rw [sunk, value_ends_kept hb hq, List.filter_map]
  refine congrArg (List.map _) (List.filter_congr fun d hd => ?_)
  have : d.position ≤ max start stream.length := (position_le_of_mem_ends q hd).2
  rw [Function.comp_apply, Bool.eq_iff_iff, beq_iff_eq, beq_iff_eq]
  exact rank_eq_length_kept_iff (by omega)

/-- **A matcher that does not look at the cursor finds the same in the stream and in what is kept of it.** -/
theorem map_moveTo_contexts_kept {m : Matcher τ ν} (blind : m.pattern.Blind) (stream : List τ)
    (c : Context τ ν) :
    (m.contexts (kept m.options.ignores stream) c).value.map (·.moveTo 0) =
      (m.contexts stream c).value.map (·.moveTo 0) := by
  obtain ⟨bound, checked⟩ := m.checked
  have hq := Pattern.roundsConsume_of_check checked
  unfold Matcher.contexts
  generalize (if m.options.debug then c.withDebug true else c) = c
  split
  · rw [value_scan_kept blind hq, List.map_map]
    rfl
  · rw [value_span_kept blind hq, List.map_map]
    rfl

end Span

/-! ### Spoiled predicates

To say that a token which is passed over is never tested, all predicates are replaced by ones that may do anything on
such tokens.  If the engine tested one, some choice of what they do would show it.
-/

section Spoiled

/-- The predicate with its test spoiled: on a token that is passed over anything may happen. -/
def Predicate.spoil (p ignores : Predicate τ ν)
    (other : Context τ ν → τ → Logged (Event τ) (Option (Context τ ν))) : Predicate τ ν :=
  { p with test := fun c t => if (isIgnored ignores t).value then other c t else p.test c t }

/-- The pattern with the test of each predicate spoiled in a way of its own. -/
def Pattern.spoil (ignores : Predicate τ ν)
    (other : Predicate τ ν → Context τ ν → τ → Logged (Event τ) (Option (Context τ ν))) :
    Pattern τ ν → Pattern τ ν
  | token p => token (p.spoil ignores (other p))
  | seq a b => seq (a.spoil ignores other) (b.spoil ignores other)
  | alt a b => alt (a.spoil ignores other) (b.spoil ignores other)
  | star a => star (a.spoil ignores other)

variable {ignores : Predicate τ ν}
  {other : Predicate τ ν → Context τ ν → τ → Logged (Event τ) (Option (Context τ ν))}

/-- Spoiling tests does not touch the shape of a pattern. -/
theorem nullable_spoil (q : Pattern τ ν) : (q.spoil ignores other).nullable = q.nullable := by
  induction q with
  | token p => rfl
  | seq a b iha ihb => simp only [Pattern.spoil, Pattern.nullable, iha, ihb]
  | alt a b iha ihb => simp only [Pattern.spoil, Pattern.nullable, iha, ihb]
  | star a => rfl

/-- The check does not look at the tests. -/
theorem check_spoil (q : Pattern τ ν) (bound : List Slot) :
    (q.spoil ignores other).check bound = q.check bound := by
  induction q generalizing bound with
  | token p => rfl
  | seq a b iha ihb => simp only [Pattern.spoil, Pattern.check, iha, ihb]
  | alt a b iha ihb => simp only [Pattern.spoil, Pattern.check, iha, ihb]
  | star a ih => simp only [Pattern.spoil, Pattern.check, ih, nullable_spoil]

/-- A predicate is tested on a token only if the token is not passed over. -/
theorem tokenEnds_spoil (stream : List τ) (p : Predicate τ ν) :
    tokenEnds ignores stream (p.spoil ignores (other p)) = tokenEnds ignores stream p := by
  funext c
  obtain ⟨-, kept⟩ := skipIgnored_spec ignores stream c.position
  rw [tokenEnds, tokenEnds]
  refine Logged.bind_congr_value ?_
  generalize (skipIgnored ignores stream c.position).value = position at kept
  cases h : stream[position]? with
  | none => rfl
  | some t =>
      obtain ⟨inside, rfl⟩ := List.getElem?_eq_some_iff.1 h
      simp only [runTest, Predicate.spoil, kept inside, Bool.false_eq_true, if_false]

/-- **No predicate of a pattern is tested on a token that is passed over.** -/
theorem ends_spoil (stream : List τ) (q : Pattern τ ν) :
    (q.spoil ignores other).ends ignores stream = q.ends ignores stream := by
  induction q with
  | token p => exact tokenEnds_spoil stream p
  | seq a b iha ihb =>
      funext c
      rw [Pattern.spoil, Pattern.ends, Pattern.ends, iha, ihb]
  | alt a b iha ihb =>
      funext c
      rw [Pattern.spoil, Pattern.ends, Pattern.ends, iha, ihb]
  | star a ih =>
      funext c
      rw [Pattern.spoil, Pattern.ends, Pattern.ends, ih]

end Spoiled

/-- **Tokens that are passed over do not matter.**  If the cursor has no say in the predicates of a matcher,
then for every stream and every context to start from the matcher lists the same contexts, in the same order
and as often, but for the cursor, in the stream and in what is kept of it when the tokens that are passed over
have been deleted; and it lists the same when any number of such tokens have been inserted anywhere.  None of
these tokens is matched, captured or recorded: what the predicates do on them is of no consequence, neither
to what is listed nor to what is reported. -/
theorem contexts_eq_of_ignored (m : Matcher τ ν) (blind : m.pattern.Blind) (stream : List τ)
    (c : Context τ ν) :
    (m.contexts (kept m.options.ignores stream) c).value.map (·.moveTo 0) =
        (m.contexts stream c).value.map (·.moveTo 0) ∧
      (∀ gaps, (∀ i, ∀ t ∈ gaps i, (isIgnored m.options.ignores t).value = true) →
        (m.contexts (interleave gaps stream) c).value.map (·.moveTo 0) =
          (m.contexts stream c).value.map (·.moveTo 0)) ∧
      ∀ other, ∃ m', (m.pattern.spoil m.options.ignores other).compile m.options = .ok m' ∧
        m'.contexts stream c = m.contexts stream c := by
  refine ⟨map_moveTo_contexts_kept blind stream c, fun gaps ignored => ?_, fun other => ?_⟩
  · have same : kept m.options.ignores (interleave gaps stream) = kept m.options.ignores stream :=
      filter_interleave (fun i t ht => by rw [ignored i t ht]; rfl) stream
    rw [← map_moveTo_contexts_kept blind, same, map_moveTo_contexts_kept blind]
  · obtain ⟨bound, checked⟩ := m.checked
    let m' : Matcher τ ν :=
      ⟨m.pattern.spoil m.options.ignores other, m.options, bound, (check_spoil _ _).trans checked⟩
    have same : m'.contexts stream = m.contexts stream := contexts_congr rfl (ends_spoil stream _)
    exact ⟨m', Pattern.compile_eq_ok.2 ⟨rfl, rfl⟩, congrFun same c⟩

/-- A letter, which is recorded, anything, and the letter again. -/
def letterTwice : Pattern Char Char :=
  ((Pattern.token ((Predicate.capture ⟨0, "letter"⟩ some).and .recording)).thenStar .any).thenToken
    (.equalsBound ⟨0, "letter"⟩ some)

/-- In `_a_ba_` with the dashes passed over, `a` is found twice, with fewer dashes and with more, and also if
each predicate would accept and record a dash. -/
theorem contexts_letterTwice :
    ∃ m : Matcher Char Char, m.pattern = letterTwice ∧ m.pattern.Blind ∧
      (m.contexts ['_', 'a', '_', 'b', 'a', '_'] .start).value.map (·.recorded) = [['a']] ∧
      (m.contexts ['a', 'b', 'a'] .start).value.map (·.moveTo 0) =
        (m.contexts ['_', 'a', '_', 'b', 'a', '_'] .start).value.map (·.moveTo 0) ∧
      ((∀ i : ℕ, ∀ t ∈ (fun _ => ['_', '_'] : ℕ → List Char) i,
          (isIgnored m.options.ignores t).value = true) ∧
        (m.contexts (interleave (fun _ => ['_', '_']) ['_', 'a', '_', 'b', 'a', '_']) .start).value.map
            (·.moveTo 0) =
          (m.contexts ['_', 'a', '_', 'b', 'a', '_'] .start).value.map (·.moveTo 0)) ∧
      ∃ m', (m.pattern.spoil m.options.ignores fun _ c t => ⟨some (c.record t), []⟩).compile m.options =
          .ok m' ∧
        m'.contexts ['_', 'a', '_', 'b', 'a', '_'] .start =
          m.contexts ['_', 'a', '_', 'b', 'a', '_'] .start := by
  let m : Matcher Char Char := ⟨letterTwice, ⟨.satisfying (· = '_'), true, false⟩, _, rfl⟩
  have blind : m.pattern.Blind :=
    ⟨⟨(Predicate.Blind.capture _ _).and .recording, .always⟩, .equalsBound _ _⟩
  have dashes : ∀ i : ℕ, ∀ t ∈ (fun _ => ['_', '_'] : ℕ → List Char) i,
      (isIgnored m.options.ignores t).value = true := fun _ t ht => by
    rcases List.mem_pair.1 ht with rfl | rfl <;> rfl
  obtain ⟨deleted, inserted, spoiled⟩ :=
    contexts_eq_of_ignored m blind ['_', 'a', '_', 'b', 'a', '_'] .start
  exact ⟨m, rfl, blind, by decide, deleted, ⟨dashes, inserted _ dashes⟩, spoiled _⟩

end Sequence
end LoopPlumbing
