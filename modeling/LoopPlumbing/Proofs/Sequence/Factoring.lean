/- # Alternatives and what they have in common

What two alternatives have in common may be drawn out in front of them or behind them.  Neither form is accepted
where the other is rejected, although the check looks at a common end once, with the slots that both alternatives
bind, in one form, and twice, with the slots that each binds, in the other: the languages are the same by
distributivity.

If the common part is the end, both forms list the same in the same order.  If it is the begin, the order differs:
the drawn-out form goes through both alternatives for each end of the begin, the other form through all ends of the
begin for each alternative.
-/

import LoopPlumbing.Proofs.Sequence.Surroundings

namespace LoopPlumbing
namespace Sequence

open scoped List

variable {τ ν : Type} (a b c : Pattern τ ν)

/-! ### The verdict

Check and compilation depend on the words and on the repeated bodies of a pattern, and both are the same on either
side.
-/

section Verdict

/-- A part behind alternatives may be written behind each of them. -/
theorem language_alt_seq : ((a.alt b).seq c).language = ((a.seq c).alt (b.seq c)).language := add_mul _ _ _

/-- A part in front of alternatives may be written in front of each of them. -/
theorem language_seq_alt : (a.seq (b.alt c)).language = ((a.seq b).alt (a.seq c)).language := mul_add _ _ _

/-- Both sides repeat the same bodies, when the common part is behind. -/
theorem roundsConsume_alt_seq : ((a.alt b).seq c).RoundsConsume ↔ ((a.seq c).alt (b.seq c)).RoundsConsume :=
  and_and_right

/-- Both sides repeat the same bodies, when the common part is in front. -/
theorem roundsConsume_seq_alt : (a.seq (b.alt c)).RoundsConsume ↔ ((a.seq b).alt (a.seq c)).RoundsConsume :=
  and_and_left

end Verdict

/-! ### The ends -/

section Ends

variable (ignores : Predicate τ ν) (stream : List τ) (d : Context τ ν)

/-- A common end is tried behind the left alternative first in both forms. -/
theorem value_ends_alt_seq :
    (((a.alt b).seq c).ends ignores stream d).value =
      (((a.seq c).alt (b.seq c)).ends ignores stream d).value := by
  rw [value_ends_seq, value_ends_alt, value_ends_alt, value_ends_seq, value_ends_seq, List.flatMap_append]

/-- With the common part in front the ends are the same up to their order: on the left they come context by context,
on the right alternative by alternative. -/
theorem perm_ends_seq_alt :
    ((a.seq (b.alt c)).ends ignores stream d).value ~
      (((a.seq b).alt (a.seq c)).ends ignores stream d).value := by
  rw [value_ends_seq, value_ends_alt, value_ends_seq, value_ends_seq]
  exact (List.flatMap_append_perm _ _ _).symm

end Ends

/-- **Factoring alternatives changes neither the verdict nor the matches.**  For all patterns, whatever their
predicates declare, under all options: `(a | b) c` compiles exactly if `ac | bc` does, and then both list the same
contexts in the same order; `a (b | c)` compiles exactly if `ab | ac` does, and then both list the same contexts up
to the order.  Within any larger pattern one form may replace the other: the larger pattern compiles or not as
before, and lists the same contexts up to the order. -/
theorem alternatives_factor :
    Interchangeable (· = ·) ((a.alt b).seq c) ((a.seq c).alt (b.seq c)) ∧
    Interchangeable (· ~ ·) (a.seq (b.alt c)) ((a.seq b).alt (a.seq c)) ∧
    ∀ s : Surroundings τ ν,
      Interchangeable (· ~ ·) (s.fill ((a.alt b).seq c)) (s.fill ((a.seq c).alt (b.seq c))) ∧
      Interchangeable (· ~ ·) (s.fill (a.seq (b.alt c))) (s.fill ((a.seq b).alt (a.seq c))) := by
  have behind : ∀ s : Surroundings τ ν,
      Interchangeable (· ~ ·) (s.fill (a.seq (b.alt c))) (s.fill ((a.seq b).alt (a.seq c))) :=
    interchangeable_fill (language_seq_alt a b c) (roundsConsume_seq_alt a b c) (perm_ends_seq_alt a b c)
  refine ⟨fun options => ?_, behind .gap, fun s => ⟨?_, behind s⟩⟩
  · refine ⟨exists_compile_iff_of_language (language_alt_seq a b c) (roundsConsume_alt_seq a b c) options,
      fun m m' hm hm' stream d => ?_⟩
    obtain ⟨hq, rfl⟩ := Pattern.compile_eq_ok.1 hm
    obtain ⟨hq', options⟩ := Pattern.compile_eq_ok.1 hm'
    refine value_contexts_congr options (fun e => ?_) d
    rw [hq, hq']
    exact value_ends_alt_seq a b c _ _ e
  · refine interchangeable_fill (language_alt_seq a b c) (roundsConsume_alt_seq a b c) (fun _ _ d => ?_) s
    exact .of_eq (value_ends_alt_seq a b c _ _ d)

/-- A letter, which is captured. -/
def captured : Pattern Char Char := .token (.capture ⟨0, "letter"⟩ some)

/-- A letter, which is captured and recorded. -/
def capturedAndRecorded : Pattern Char Char := .token (.and (.capture ⟨0, "letter"⟩ some) .recording)

/-- The captured letter. -/
def again : Pattern Char Char := .token (.equalsBound ⟨0, "letter"⟩ some)

/-- In `aa` a letter and the letter again are found in both forms, in the same order, when the end is drawn out; and
so they are, again and again and up to the order, before another letter.  In `ab` two letters are found in another
order when the begin is drawn out. -/
theorem contexts_factored :
    (∃ m m', ((captured.alt capturedAndRecorded).seq again).compile ⟨.never, false, false⟩ = .ok m ∧
      ((captured.seq again).alt (capturedAndRecorded.seq again)).compile ⟨.never, false, false⟩ = .ok m' ∧
      (m.contexts ['a', 'a'] .start).value = (m'.contexts ['a', 'a'] .start).value ∧
      (m.contexts ['a', 'a'] .start).value.map (·.recorded) = [[], ['a']]) ∧
    (∃ m m', ((captured.alt capturedAndRecorded).seq (.alt .any (.token .recording))).compile
        ⟨.never, false, false⟩ = .ok m ∧
      (((captured.alt capturedAndRecorded).seq .any).alt
        ((captured.alt capturedAndRecorded).seq (.token .recording))).compile ⟨.never, false, false⟩ = .ok m' ∧
      (m.contexts ['a', 'b'] .start).value ~ (m'.contexts ['a', 'b'] .start).value ∧
      (m.contexts ['a', 'b'] .start).value.map (·.recorded) = [[], ['b'], ['a'], ['a', 'b']] ∧
      (m'.contexts ['a', 'b'] .start).value.map (·.recorded) = [[], ['a'], ['b'], ['a', 'b']]) ∧
    ∃ m m', (((captured.alt capturedAndRecorded).seq again).star.seq .any).compile ⟨.never, true, false⟩ = .ok m ∧
      (((captured.seq again).alt (capturedAndRecorded.seq again)).star.seq .any).compile ⟨.never, true, false⟩ =
        .ok m' ∧
      (m.contexts ['a', 'a', 'b'] .start).value ~ (m'.contexts ['a', 'a', 'b'] .start).value ∧
      (m.contexts ['a', 'a', 'b'] .start).value.map (·.recorded) = [[], ['a'], [], [], []] := by
  obtain ⟨same, -, within⟩ := alternatives_factor captured capturedAndRecorded again
  obtain ⟨-, alike, -⟩ := alternatives_factor (captured.alt capturedAndRecorded) .any (.token .recording)
  obtain ⟨repeated, -⟩ := within (.seqFirst (.starBody .gap) .any)
  exact ⟨⟨⟨_, _, _, rfl⟩, ⟨_, _, _, rfl⟩, rfl, rfl, (same _).2 _ _ rfl rfl _ _, by decide⟩,
    ⟨⟨_, _, _, rfl⟩, ⟨_, _, _, rfl⟩, rfl, rfl, (alike _).2 _ _ rfl rfl _ _, by decide, by decide⟩,
    ⟨_, _, _, rfl⟩, ⟨_, _, _, rfl⟩, rfl, rfl, (repeated _).2 _ _ rfl rfl _ _, by decide⟩

end Sequence
end LoopPlumbing
