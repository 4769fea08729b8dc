/- # Predicates and patterns as syntax

The predicates that are built from the elements of the vocabulary, as expressions.  `Formula.predicate` is
the predicate that an expression stands for, for any way of comparing a token with a slot; the usual one is
`Predicate.equalsBound`.  A `Grammar` is a pattern over formulas.

What a formula declares is true (`Formula.faithful`).  In a context that binds what the formula requires it
compares with bound slots only, so the outcome of a comparison with an unbound slot does not matter; and if
it succeeds, what was bound stays bound and what the formula declares to bind is bound.

What is said of every formula is proved once for each element and each connective.  The comparison with a bound slot
is a parameter of the pattern that a formula stands for, so that the pattern as it is can be set beside one whose
comparison does something else where nothing is bound; everything else about the two is the same.
-/

import LoopPlumbing.Sequence.Pattern
import Mathlib.Data.List.Basic

namespace LoopPlumbing
namespace Sequence

variable {τ ν : Type}

/-! ### The vocabulary

A formula is an element of the vocabulary for tests of one token, with the comparison left open; a grammar puts
formulas together in the way a pattern puts predicates together.
-/

/-- An expression for a predicate. -/
inductive Formula (τ ν : Type) where
  | always
  | never
  | satisfying (p : τ → Bool)
  | recording
  | checkpoint (label : String)
  | capture (s : Slot) (extract : τ → Option ν)
  | equalsBound (s : Slot) (extract : τ → Option ν)
  | and (f g : Formula τ ν)
  | or (f g : Formula τ ν)
  | negate (f : Formula τ ν)

/-- The predicate of a formula, if tokens are compared with slots by `compare`. -/
def Formula.predicate (compare : Slot → (τ → Option ν) → Predicate τ ν) :
    Formula τ ν → Predicate τ ν
  | always => .always
  | never => .never
  | satisfying p => .satisfying p
  | recording => .recording
  | checkpoint label => .checkpoint label
  | capture s extract => .capture s extract
  | equalsBound s extract => compare s extract
  | and f g => (f.predicate compare).and (g.predicate compare)
  | or f g => (f.predicate compare).or (g.predicate compare)
  | negate f => (f.predicate compare).negate

/-- A pattern over formulas. -/
inductive Grammar (τ ν : Type) where
  | token (f : Formula τ ν)
  | seq (first second : Grammar τ ν)
  | alt (left right : Grammar τ ν)
  | star (body : Grammar τ ν)

/-- The pattern of a grammar, if tokens are compared with slots by `compare`. -/
def Grammar.pattern (compare : Slot → (τ → Option ν) → Predicate τ ν) :
    Grammar τ ν → Pattern τ ν
  | token f => .token (f.predicate compare)
  | seq a b => .seq (a.pattern compare) (b.pattern compare)
  | alt a b => .alt (a.pattern compare) (b.pattern compare)
  | star a => .star (a.pattern compare)

/-- Compares a token with a slot as usual if the slot is bound; if not, anything may happen. -/
def Predicate.equalsBoundOr [BEq ν]
    (unbound : Slot → Context τ ν → τ → Logged (Event τ) (Option (Context τ ν))) (s : Slot)
    (extract : τ → Option ν) : Predicate τ ν :=
  (ofTest fun c t =>
    if c.isBound s then (equalsBound s extract).test c t else unbound s c t).requiring s

/-! ### What is bound -/

namespace Context

/-- Every slot of the list is bound. -/
def Binds (c : Context τ ν) (slots : List Slot) : Prop := ∀ s ∈ slots, c.isBound s = true

/-- Whatever is bound stays bound. -/
def Keeps (c d : Context τ ν) : Prop := ∀ s, c.isBound s = true → d.isBound s = true

variable {c d e : Context τ ν} {slots : List Slot}

/-- Nothing is lost where nothing is done. -/
theorem Keeps.refl (c : Context τ ν) : c.Keeps c := fun _ h => h

/-- What is kept twice is kept. -/
theorem Keeps.trans (h : c.Keeps d) (h' : d.Keeps e) : c.Keeps e := fun s hs => h' s (h s hs)

/-- Bound slots are bound in every context that keeps them. -/
theorem Binds.mono (hc : c.Binds slots) (h : c.Keeps d) : d.Binds slots :=
  fun s hs => h s (hc s hs)

/-- Binding a slot keeps what is bound, and binds the slot. -/
theorem keeps_of_store {s : Slot} {v : ν} (h : c.store s v = some d) :
    c.Keeps d ∧ d.isBound s = true := by
  constructor
  · intro t ht
    rw [isBound, value?_store h]
    split
    · rfl
    · exact ht
  · rw [isBound, value?_store h, if_pos rfl]
    rfl

end Context

/-! ### Predicates that keep their word

What a predicate requires and binds is declared apart from its test, and the check trusts the declaration.  For
formulas it is right: under a context that binds what is required, the test does not come to an unbound slot, and an
accepted token leaves what is declared bound.  Each connective hands this on.
-/

/-- The predicate `q` behaves like `p`, whose declarations are true, wherever the slots that `p` requires
are bound. -/
structure Faithful (p q : Predicate τ ν) : Prop where
  requires : q.requires = p.requires
  binds : q.binds = p.binds
  test_eq : ∀ {c : Context τ ν} (t : τ), c.Binds p.requires → q.test c t = p.test c t
  keeps : ∀ {c d : Context τ ν} {t : τ}, c.Binds p.requires → (p.test c t).value = some d →
    c.Keeps d ∧ d.Binds p.binds

namespace Faithful

/-- A predicate that declares nothing and leaves the bindings as they are. -/
theorem of_bindings {test : Context τ ν → τ → Logged (Event τ) (Option (Context τ ν))}
    (h : ∀ c t d, (test c t).value = some d → d.bindings = c.bindings) :
    Faithful (Predicate.ofTest test) (Predicate.ofTest test) where
  requires := rfl
  binds := rfl
  test_eq _ _ := rfl
  keeps {c d t} _ hd := by
    have same := h c t d hd
    refine ⟨fun s hs => ?_, fun s hs => absurd hs List.not_mem_nil⟩
    rw [Context.isBound, Context.value?, same]
    exact hs

/-- A capture binds the slot that it declares, unless the slot holds another value or there is none to capture. -/
theorem capture (s : Slot) (extract : τ → Option ν) :
    Faithful (Predicate.capture s extract) (Predicate.capture s extract) where
  requires := rfl
  binds := rfl
  test_eq _ _ := rfl
  keeps {c d t} _ hd := by
    rw [Predicate.value_test_capture] at hd
    obtain ⟨v, -, hv⟩ := Option.bind_eq_some_iff.1 hd
    obtain ⟨keeps, bound⟩ := Context.keeps_of_store hv
    refine ⟨keeps, fun s' hs' => ?_⟩
    have : s' = s := by simpa [Predicate.capture, Predicate.binding, Predicate.ofStep,
      Predicate.ofTest, adjoin] using hs'
    exact this ▸ bound

/-- Where the slot is bound, it does not matter what a comparison does with an unbound slot. -/
theorem equalsBound [BEq ν]
    (unbound : Slot → Context τ ν → τ → Logged (Event τ) (Option (Context τ ν))) (s : Slot)
    (extract : τ → Option ν) :
    Faithful (Predicate.equalsBound s extract) (Predicate.equalsBoundOr unbound s extract) where
  requires := rfl
  binds := rfl
  test_eq {c} t hc := by
    have bound : c.isBound s = true :=
      hc s (by simp [Predicate.equalsBound, Predicate.requiring, mem_adjoin])
    exact if_pos bound
  keeps {c d t} _ hd := by
    rw [Predicate.value_test_equalsBound] at hd
    obtain ⟨v, -, hd⟩ := Option.bind_eq_some_iff.1 hd
    obtain ⟨w, -, hd⟩ := Option.bind_eq_some_iff.1 hd
    split at hd
    · cases hd
      exact ⟨.refl c, fun s hs => absurd hs List.not_mem_nil⟩
    · cases hd

variable {p q p' q' : Predicate τ ν}

/-- What a conjunction requires from outside covers what its left part requires. -/
theorem binds_requires_and_left {c : Context τ ν} (hc : c.Binds (p.and q).requires) :
    c.Binds p.requires := fun s hs => hc s (Predicate.mem_requires_and.2 (.inl hs))

/-- The second operand of a conjunction runs where the first has bound what it declares to bind. -/
theorem binds_requires_and {c d : Context τ ν} {t : τ} (hp : Faithful p p')
    (hc : c.Binds (p.and q).requires) (hd : (p.test c t).value = some d) : d.Binds q.requires := by
  obtain ⟨grown, bound⟩ := hp.keeps (binds_requires_and_left hc) hd
  intro s hs
  by_cases hb : s ∈ p.binds
  · exact bound s hb
  · exact grown s (hc s (Predicate.mem_requires_and.2 (.inr ⟨hs, hb⟩)))

/-- What an alternative requires is what either operand requires. -/
theorem binds_requires_or {c : Context τ ν} (hc : c.Binds (p.or q).requires) :
    c.Binds p.requires ∧ c.Binds q.requires :=
  ⟨fun s hs => hc s (Predicate.mem_requires_or.2 (.inl hs)),
    fun s hs => hc s (Predicate.mem_requires_or.2 (.inr hs))⟩

/-- A conjunction is faithful if both parts are: what the right part requires is bound outside or by the left part. -/
theorem and (hp : Faithful p p') (hq : Faithful q q') : Faithful (p.and q) (p'.and q') where
  requires := by simp only [Predicate.and, hp.requires, hp.binds, hq.requires]
  binds := by simp only [Predicate.and, hp.binds, hq.binds]
  test_eq {c} t hc := by
    simp only [Predicate.and, hp.test_eq t (binds_requires_and_left hc)]
    refine Logged.bind_congr_value ?_
    cases h : (p.test c t).value with
    | none => rfl
    | some d => exact hq.test_eq t (hp.binds_requires_and hc h)
  keeps {c e t} hc he := by
    rw [Predicate.value_test_and] at he
    obtain ⟨d, hd, he⟩ := Option.bind_eq_some_iff.1 he
    obtain ⟨grown, bound⟩ := hp.keeps (binds_requires_and_left hc) hd
    obtain ⟨grown', bound'⟩ := hq.keeps (hp.binds_requires_and hc hd) he
    refine ⟨grown.trans grown', fun s hs => ?_⟩
    rcases Predicate.mem_binds_and.1 hs with hs | hs
    · exact grown' s (bound s hs)
    · exact bound' s hs

/-- A disjunction is faithful if both parts are, and binds what both bind. -/
theorem or (hp : Faithful p p') (hq : Faithful q q') : Faithful (p.or q) (p'.or q') where
  requires := by simp only [Predicate.or, hp.requires, hq.requires]
  binds := by simp only [Predicate.or, hp.binds, hq.binds]
  test_eq {c} t hc := by
    obtain ⟨left, right⟩ := binds_requires_or hc
    simp only [Predicate.or, hp.test_eq t left, hq.test_eq t right]
  keeps {c d t} hc hd := by
    obtain ⟨left, right⟩ := binds_requires_or hc
    rw [Predicate.value_test_or] at hd
    rcases Option.or_eq_some_iff.1 hd with h | ⟨-, h⟩
    · obtain ⟨grown, bound⟩ := hp.keeps left h
      exact ⟨grown, fun s hs => bound s (Predicate.mem_binds_or.1 hs).1⟩
    · obtain ⟨grown, bound⟩ := hq.keeps right h
      exact ⟨grown, fun s hs => bound s (Predicate.mem_binds_or.1 hs).2⟩

/-- A negation is faithful if its part is.  It declares no binding, and keeps none. -/
theorem negate (hp : Faithful p p') : Faithful p.negate p'.negate where
  requires := hp.requires
  binds := rfl
  test_eq {c} t hc := by simp only [Predicate.negate, hp.test_eq t hc]
  keeps {c d t} _ hd := by
    rw [Predicate.value_test_negate] at hd
    split at hd
    · cases hd
    · cases hd
      exact ⟨.refl c, fun s hs => absurd hs List.not_mem_nil⟩

end Faithful

/-- **What a formula declares is true**, and the outcome of a comparison with an unbound slot does not
matter where the slots that the formula requires are bound. -/
theorem Formula.faithful [BEq ν]
    (unbound : Slot → Context τ ν → τ → Logged (Event τ) (Option (Context τ ν))) (f : Formula τ ν) :
    Faithful (f.predicate .equalsBound) (f.predicate (.equalsBoundOr unbound)) := by
  induction f with
  | always => exact .of_bindings fun c t d h => by cases h; rfl
  | never => exact .of_bindings fun c t d h => by cases h
  | satisfying p =>
      refine .of_bindings fun c t d h => ?_
      have h : (if p t then some c else none) = some d := h
      split at h
      · cases h
        rfl
      · cases h
  | recording => exact .of_bindings fun c t d h => by cases h; rfl
  | checkpoint label => exact .of_bindings fun c t d h => by cases h; rfl
  | capture s extract => exact .capture s extract
  | equalsBound s extract => exact .equalsBound unbound s extract
  | and f g hf hg => exact hf.and hg
  | or f g hf hg => exact hf.or hg
  | negate f hf => exact hf.negate

end Sequence
end LoopPlumbing
