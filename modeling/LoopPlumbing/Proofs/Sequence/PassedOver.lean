/- # What is passed over is not checked

Which tokens are passed over is decided by a predicate of the options, which is tested in a fresh context each time.
The check looks at the pattern alone, so its verdict is the same whatever the options say
(`compile_eq_error_congr`).  A comparison in that predicate is therefore never rejected, and it is run with a slot that
nothing has bound: what the pattern binds is not there in a fresh context (`isIgnored_equalsBoundOr`).

Had the predicate been checked like a token with nothing in front of it, this could not happen.  The check would accept
it exactly if it requires nothing (`exists_compile_token_iff`), and a formula that requires nothing compares with bound
slots only, wherever it is tested (`Formula.predicate_equalsBoundOr`).
-/

import LoopPlumbing.Proofs.Sequence.Check
import LoopPlumbing.Proofs.Sequence.Formula

namespace LoopPlumbing
namespace Sequence

variable {τ ν : Type}

/-! ### The verdict

The verdict does not mention the tokens to pass over at all.
-/

section Verdict

/-- The options do not matter to the verdict. -/
theorem compile_eq_error_congr (q : Pattern τ ν) (options options' : Options τ ν) (fault : Fault) :
    q.compile options = .error fault ↔ q.compile options' = .error fault :=
  Pattern.compile_eq_error.trans Pattern.compile_eq_error.symm

/-- With nothing in front of it, a token is accepted exactly if its predicate requires nothing. -/
theorem exists_compile_token_iff (p : Predicate τ ν) (options : Options τ ν) :
    (∃ m, (Pattern.token p).compile options = .ok m) ↔ p.requires = [] := by
  rw [Pattern.exists_compile_eq_ok, List.eq_nil_iff_forall_not_mem]
  constructor
  · rintro ⟨bound, h⟩ s hs
    exact List.not_mem_nil ((Pattern.check_token_eq_ok.1 h).1 s hs)
  · intro nothing
    exact ⟨_, Pattern.check_token_eq_ok.2 ⟨fun s hs => absurd hs (nothing s), rfl⟩⟩

end Verdict

/-! ### What the test reads

In the starting context nothing is bound, so a predicate that compares with a bound value finds none there, whatever
the pattern has bound by then.
-/

section Reading

variable [BEq ν] (unbound : Slot → Context τ ν → τ → Logged (Event τ) (Option (Context τ ν)))

/-- **A comparison that decides what is passed over always meets an unbound slot.** -/
theorem isIgnored_equalsBoundOr (s : Slot) (extract : τ → Option ν) (t : τ) :
    isIgnored (.equalsBoundOr unbound s extract) t =
      (·.isSome) <$> (unbound s .start t).mapEvents .reported := rfl

/-- **A formula that requires nothing never compares with an unbound slot**, whatever the context. -/
theorem Formula.predicate_equalsBoundOr {f : Formula τ ν} (nothing : (f.predicate .equalsBound).requires = []) :
    f.predicate (.equalsBoundOr unbound) = f.predicate .equalsBound := by
  obtain ⟨requires, binds, test_eq, -⟩ := f.faithful unbound
  have tested : (f.predicate (.equalsBoundOr unbound)).test = (f.predicate .equalsBound).test := by
    funext c t
    refine test_eq t fun s hs => ?_
    rw [nothing] at hs
    exact absurd hs List.not_mem_nil
  calc f.predicate (.equalsBoundOr unbound)
    _ = ⟨(f.predicate .equalsBound).test, (f.predicate .equalsBound).requires, (f.predicate .equalsBound).binds⟩ := by
        rw [← tested, ← requires, ← binds]
    _ = f.predicate .equalsBound := rfl

/-- **The check does not cover what is passed over.**  Let a comparison with an unbound slot have any outcome.  For
every pattern, the verdict is the same whatever formula decides which tokens are passed over; and a comparison that
decides it meets an unbound slot.  If the formula would be accepted as a token with nothing in front of it, no
comparison in it does: the pattern compiles as before, and on every stream and from every context it lists and reports
the same, whatever the outcome. -/
theorem check_overlooks_passed_over (q : Pattern τ ν) (f : Formula τ ν) (scan debug : Bool) :
    (∀ options fault, q.compile ⟨f.predicate .equalsBound, scan, debug⟩ = .error fault ↔
      q.compile options = .error fault) ∧
    (∀ s extract t, isIgnored (.equalsBoundOr unbound s extract) t =
      (·.isSome) <$> (unbound s .start t).mapEvents .reported) ∧
    ((∃ m, (Pattern.token (f.predicate .equalsBound)).compile .default = .ok m) →
      ∀ m, q.compile ⟨f.predicate .equalsBound, scan, debug⟩ = .ok m →
        ∃ m', q.compile ⟨f.predicate (.equalsBoundOr unbound), scan, debug⟩ = .ok m' ∧
          ∀ stream c, m'.contexts stream c = m.contexts stream c) := by
  refine ⟨fun options fault => compile_eq_error_congr q _ options fault, isIgnored_equalsBoundOr unbound,
    fun accepted m hm => ⟨m, ?_, fun stream c => rfl⟩⟩
  rw [Formula.predicate_equalsBoundOr unbound ((exists_compile_token_iff _ _).1 accepted)]
  exact hm

end Reading

/-- Blanks, each compared with itself once it is captured. -/
def blank : Formula Char Char :=
  .and (.and (.satisfying (· = '_')) (.capture ⟨0, "seen"⟩ some)) (.equalsBound ⟨0, "seen"⟩ some)

/-- The blank of `_a` is passed over, whatever reading an unbound slot would do: here it would succeed and report so. -/
theorem contexts_passingOverBlank :
    (∃ m, (Pattern.token (blank.predicate .equalsBound)).compile .default = .ok m) ∧
    ∃ m, Pattern.any.compile ⟨blank.predicate .equalsBound, true, false⟩ = .ok m ∧
      (m.contexts ['_', 'a'] .start).value = [⟨2, [], [], false⟩] ∧
      ∃ m', Pattern.any.compile
          ⟨blank.predicate (.equalsBoundOr fun s c t => ⟨some c, [.checkpoint s.name 0 t]⟩), true, false⟩ = .ok m' ∧
        ∀ stream c, m'.contexts stream c = m.contexts stream c := by
  have accepted : ∃ m, (Pattern.token (blank.predicate .equalsBound)).compile .default = .ok m := ⟨⟨_, _, _, rfl⟩, rfl⟩
  exact ⟨accepted, ⟨_, _, _, rfl⟩, rfl, by decide,
    (check_overlooks_passed_over _ .any blank true false).2.2 accepted _ rfl⟩

/-- Letters seen before are to be passed over, but nothing binds what was seen.  The pattern compiles all the same, and
the outcome of a comparison with the unbound slot decides whether `a` is found: it is if the comparison fails, and it is
not if the comparison succeeds. -/
theorem contexts_passingOverSeen :
    ∃ m m' : Matcher Char Char,
      Pattern.any.compile ⟨.equalsBound ⟨0, "seen"⟩ some, true, false⟩ = .ok m ∧
      Pattern.any.compile ⟨.equalsBoundOr (fun _ c _ => pure (some c)) ⟨0, "seen"⟩ some, true, false⟩ = .ok m' ∧
      (m.contexts ['a'] .start).value = [⟨1, [], [], false⟩] ∧ (m'.contexts ['a'] .start).value = [] :=
  ⟨⟨_, _, _, rfl⟩, ⟨_, _, _, rfl⟩, rfl, rfl, by decide, by decide⟩

end Sequence
end LoopPlumbing
