/- # The check keeps matching from reading unbound slots

If a pattern passes the check from the slots `bound`, then from a context that binds these slots it ends in
contexts that keep what was bound and bind what the check says is bound afterwards, and on the way no token
is compared with a slot that is not bound (`endsAlike_of_check`).  In an alternation this holds of either
branch; in a repetition each round starts again from a context that binds `bound`.

A pattern that is compiled is checked from no slots at all, which every context binds.
-/

import LoopPlumbing.Proofs.Sequence.Check
import LoopPlumbing.Proofs.Sequence.Formula
import LoopPlumbing.Proofs.Sequence.Progress
import LoopPlumbing.Proofs.Sequence.Search

namespace LoopPlumbing
namespace Sequence

variable {τ ν : Type}

/-! ### Patterns that end alike

Two patterns with the same shape are compared, whose tokens behave alike wherever what they require is bound.  Each
lemma takes one constructor of patterns and says which slots are bound behind it; these are the slots that the check
gives.
-/

section Faithful

variable {ignores : Predicate τ ν} {stream : List τ} {c : Context τ ν} {bound after : List Slot}

/-- The patterns `q` and `q'` end alike wherever the slots `bound` are bound, what is bound stays bound, and
the slots `after` are bound at each end. -/
def EndsAlike (ignores : Predicate τ ν) (stream : List τ) (q q' : Pattern τ ν)
    (bound after : List Slot) : Prop :=
  ∀ c : Context τ ν, c.Binds bound →
    q'.ends ignores stream c = q.ends ignores stream c ∧
      ∀ d ∈ (q.ends ignores stream c).value, c.Keeps d ∧ d.Binds after

/-- Tokens that behave alike end alike, and what they declare to bind is bound behind them. -/
theorem endsAlike_token {p p' : Predicate τ ν} (h : Faithful p p') (hb : ∀ s ∈ p.requires, s ∈ bound) :
    EndsAlike ignores stream (.token p) (.token p') bound (bound ++ p.binds) := by
  intro c hc
  have enough : ∀ i, (c.moveTo i).Binds p.requires := fun i s hs => hc s (hb s hs)
  constructor
  · rw [Pattern.ends, Pattern.ends, tokenEnds, tokenEnds]
    refine Logged.bind_congr_value ?_
    cases stream[(skipIgnored ignores stream c.position).value]? with
    | none => rfl
    | some t => simp only [runTest, h.test_eq t (enough _)]
  · intro d hd
    rw [value_ends_token] at hd
    obtain ⟨t, e, -, he, rfl⟩ := mem_value_tokenEnds.1 hd
    obtain ⟨grown, binds⟩ := h.keeps (enough _) he
    refine ⟨grown, fun s hs => ?_⟩
    rcases List.mem_append.1 hs with hs | hs
    · exact grown s (hc s hs)
    · exact binds s hs

/-- Sequences end alike if their parts do, the second part with what the first has bound. -/
theorem endsAlike_seq {a a' b b' : Pattern τ ν} {middle : List Slot}
    (ha : EndsAlike ignores stream a a' bound middle)
    (hb : EndsAlike ignores stream b b' middle after) :
    EndsAlike ignores stream (a.seq b) (a'.seq b') bound after := by
  intro c hc
  obtain ⟨same, keeps⟩ := ha c hc
  constructor
  · rw [Pattern.ends, Pattern.ends, same]
    exact Logged.bind_congr_value (Logged.gather_congr fun d hd => (hb d (keeps d hd).2).1)
  · intro e he
    rw [value_ends_seq, List.mem_flatMap] at he
    obtain ⟨d, hd, he⟩ := he
    obtain ⟨grown, binds⟩ := keeps d hd
    obtain ⟨grown', binds'⟩ := (hb d binds).2 e he
    exact ⟨grown.trans grown', binds'⟩

/-- Alternatives end alike if both do; only what both bind is bound behind them for certain. -/
theorem endsAlike_alt {a a' b b' : Pattern τ ν} {left right : List Slot}
    (ha : EndsAlike ignores stream a a' bound left) (hb : EndsAlike ignores stream b b' bound right) :
    EndsAlike ignores stream (a.alt b) (a'.alt b') bound (left.filter (· ∈ right)) := by
  intro c hc
  obtain ⟨sameLeft, keepsLeft⟩ := ha c hc
  obtain ⟨sameRight, keepsRight⟩ := hb c hc
  constructor
  · rw [Pattern.ends, Pattern.ends, sameLeft, sameRight]
  · intro d hd
    rw [value_ends_alt, List.mem_append] at hd
    rcases hd with hd | hd
    · obtain ⟨grown, binds⟩ := keepsLeft d hd
      exact ⟨grown, fun s hs => binds s (List.mem_filter.1 hs).1⟩
    · obtain ⟨grown, binds⟩ := keepsRight d hd
      exact ⟨grown, fun s hs => binds s (of_decide_eq_true (List.mem_filter.1 hs).2)⟩

/-- Repetitions end alike if one round does.  Nothing new is certain behind them, for there may have been no round. -/
theorem endsAlike_star {a a' : Pattern τ ν} (ha : EndsAlike ignores stream a a' bound after) :
    EndsAlike ignores stream a.star a'.star bound bound := by
  intro c hc
  have keep : ∀ d : Context τ ν, c.Keeps d → ∀ e ∈ (a.ends ignores stream d).value, c.Keeps e :=
    fun d hd e he => hd.trans ((ha d (hc.mono hd)).2 e he).1
  constructor
  · exact rounds_congr keep (fun d hd => (ha d (hc.mono hd)).1) (.refl c)
  · intro d hd
    rw [value_ends_star] at hd
    have kept : c.Keeps d := rounds_keeps keep (.refl c) hd
    exact ⟨kept, hc.mono kept⟩

end Faithful

/-! ### Grammars -/

section Grammar

variable [BEq ν] (unbound : Slot → Context τ ν → τ → Logged (Event τ) (Option (Context τ ν)))

/-- What the check says does not hang on the outcome of comparisons. -/
theorem check_equalsBoundOr (g : Grammar τ ν) (bound : List Slot) :
    (g.pattern (.equalsBoundOr unbound)).check bound = (g.pattern .equalsBound).check bound := by
  have nullable : ∀ g : Grammar τ ν, (g.pattern (.equalsBoundOr unbound)).nullable =
      (g.pattern .equalsBound).nullable := by
    intro g
    induction g with
    | token f => rfl
    | seq a b iha ihb => simp only [Grammar.pattern, Pattern.nullable, iha, ihb]
    | alt a b iha ihb => simp only [Grammar.pattern, Pattern.nullable, iha, ihb]
    | star a => rfl
  induction g generalizing bound with
  | token f =>
      have h := f.faithful unbound
      simp only [Grammar.pattern, Pattern.check, h.requires, h.binds]
  | seq a b iha ihb => simp only [Grammar.pattern, Pattern.check, iha, ihb]
  | alt a b iha ihb => simp only [Grammar.pattern, Pattern.check, iha, ihb]
  | star a ih => simp only [Grammar.pattern, Pattern.check, ih, nullable]

/-- **A grammar that passes the check never compares with an unbound slot**, and binds what the check
promises. -/
theorem endsAlike_of_check (ignores : Predicate τ ν) (stream : List τ) {g : Grammar τ ν}
    {bound after : List Slot} (h : (g.pattern .equalsBound).check bound = .ok after) :
    EndsAlike ignores stream (g.pattern .equalsBound) (g.pattern (.equalsBoundOr unbound)) bound
      after := by
  induction g generalizing bound after with
  | token f =>
      obtain ⟨hb, rfl⟩ := Pattern.check_token_eq_ok.1 h
      exact endsAlike_token (f.faithful unbound) hb
  | seq a b iha ihb =>
      obtain ⟨middle, ha, hb⟩ := Pattern.check_seq_eq_ok.1 h
      exact endsAlike_seq (iha ha) (ihb hb)
  | alt a b iha ihb =>
      obtain ⟨left, right, ha, hb, rfl⟩ := Pattern.check_alt_eq_ok.1 h
      exact endsAlike_alt (iha ha) (ihb hb)
  | star a ih =>
      obtain ⟨-, ⟨inner, ha⟩, rfl⟩ := Pattern.check_star_eq_ok.1 h
      exact endsAlike_star (ih ha)

/-- **A compiled grammar never reads an unbound slot.**  Let a comparison with an unbound slot have any
outcome, a success, a failure, or a report of its own by which an error could be told: the grammar compiles
as before, and lists the same contexts and reports the same, for every stream, every choice of tokens to be
passed over and every context to start from.  Each context that it lists, and each in which the pattern can
end from anywhere, binds all that the check says is bound. -/
theorem contexts_equalsBoundOr {g : Grammar τ ν} {options : Options τ ν} {m : Matcher τ ν}
    (h : (g.pattern .equalsBound).compile options = .ok m) (stream : List τ) :
    (∃ m', (g.pattern (.equalsBoundOr unbound)).compile options = .ok m' ∧
      ∀ c, m'.contexts stream c = m.contexts stream c) ∧
    ∃ bound, (g.pattern .equalsBound).check [] = .ok bound ∧
      (∀ c, ∀ d ∈ (m.contexts stream c).value, d.Binds bound) ∧
      ∀ c, ∀ d ∈ ((g.pattern .equalsBound).ends options.ignores stream c).value, d.Binds bound := by
  obtain ⟨hm, rfl⟩ := Pattern.compile_eq_ok.1 h
  obtain ⟨bound, hbound⟩ := m.checked
  rw [hm] at hbound
  have alike := endsAlike_of_check unbound m.options.ignores stream hbound
  have unread : ∀ c : Context τ ν, c.Binds [] := fun c s hs => absurd hs List.not_mem_nil
  constructor
  · have checked := (check_equalsBoundOr unbound g []).trans hbound
    let m' : Matcher τ ν := ⟨_, m.options, bound, checked⟩
    have same : m'.contexts stream = m.contexts stream := by
      refine contexts_congr rfl (funext fun d => ?_)
      rw [hm]
      exact (alike d (unread d)).1
    exact ⟨m', Pattern.compile_eq_ok.2 ⟨rfl, rfl⟩, fun c => congrFun same c⟩
  · refine ⟨bound, hbound, fun c d hd => ?_, fun c d hd => ((alike c (unread c)).2 d hd).2⟩
    obtain ⟨start, stop, e, he, rfl⟩ := exists_mem_ends_of_mem_contexts hd
    rw [hm] at he
    exact ((alike _ (unread _)).2 e he).2

end Grammar

/-- A letter that is read in either of two ways, anything, and the letter again. -/
def letterAgain : Grammar Char Char :=
  .seq
    (.seq
      (.alt (.token (.and (.capture ⟨0, "letter"⟩ some) .recording))
        (.token (.capture ⟨0, "letter"⟩ some)))
      (.star (.token .always)))
    (.token (.or (.equalsBound ⟨0, "letter"⟩ some) (.negate .always)))

/-- In `abca` the letter is found again in two ways, whatever reading an unbound slot would do: here it
would succeed and report so. -/
theorem contexts_letterAgain :
    ∃ m, (letterAgain.pattern .equalsBound).compile ⟨.never, false, false⟩ = .ok m ∧
      (m.contexts ['a', 'b', 'c', 'a'] .start).value.length = 2 ∧
      ((∃ m', (letterAgain.pattern (.equalsBoundOr fun s c t => ⟨some c, [.checkpoint s.name 0 t]⟩)).compile
          ⟨.never, false, false⟩ = .ok m' ∧
        ∀ c, m'.contexts ['a', 'b', 'c', 'a'] c = m.contexts ['a', 'b', 'c', 'a'] c) ∧
      ∃ bound, (letterAgain.pattern .equalsBound).check [] = .ok bound ∧
        (∀ c, ∀ d ∈ (m.contexts ['a', 'b', 'c', 'a'] c).value, d.Binds bound) ∧
        ∀ c, ∀ d ∈ ((letterAgain.pattern .equalsBound).ends .never ['a', 'b', 'c', 'a'] c).value,
          d.Binds bound) :=
  ⟨⟨letterAgain.pattern .equalsBound, ⟨.never, false, false⟩, _, rfl⟩, rfl, by decide,
    contexts_equalsBoundOr _ rfl _⟩

end Sequence
end LoopPlumbing
