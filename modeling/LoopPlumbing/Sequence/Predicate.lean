/- # Predicates on one token

A predicate decides whether one token is acceptable in a context and says in which context the match
goes on.  Beside the test it declares which slots it needs bound beforehand and which slots it binds
whenever it succeeds; the check of a pattern (`LoopPlumbing.Sequence.Pattern`) sees the declarations
only.

Predicates are built from a few elements (`always`, `never`, `satisfying`, `capture`, `equalsBound`,
`recording`, `checkpoint`) by `and`, `or` and `negate`, which combine the tests and work out the
declarations.  `ofTest` takes any test and declares nothing; `requiring` and `binding` add to the
declarations by hand.

A test may report what it does.  Of the elements `checkpoint` alone does; a test of one's own may report
anything, also what matching reports itself, so matching marks what it hears from a predicate
(`Event.reported`) and can be told from it.
-/

import LoopPlumbing.Distinct
import LoopPlumbing.Logged
import LoopPlumbing.Sequence.Context

namespace LoopPlumbing
namespace Sequence

/-- Something that is reported on the way of a match. -/
inductive Event (τ : Type) where
  /-- Matching tested a token of the pattern against the token at `position`. -/
  | tokenTested (position : Nat) (token : τ) (matched : Bool)
  /-- A checkpoint named `label` was passed at a token, with the cursor at `position`. -/
  | checkpoint (label : String) (position : Nat) (token : τ)
  /-- A predicate that matching ran reported something. -/
  | reported (e : Event τ)
deriving DecidableEq

/-- A test of one token in a context, with the slots that it needs and the slots that it binds. -/
structure Predicate (τ ν : Type) where
  /-- The context to go on in, if the token is accepted. -/
  test : Context τ ν → τ → Logged (Event τ) (Option (Context τ ν))
  /-- What must be bound before the test is run. -/
  requires : List Slot
  /-- What is bound whenever the test succeeds. -/
  binds : List Slot

namespace Predicate

variable {τ ν : Type}

/-! ### The vocabulary -/

/-- Any test, with nothing declared. -/
def ofTest (test : Context τ ν → τ → Logged (Event τ) (Option (Context τ ν))) : Predicate τ ν :=
  ⟨test, [], []⟩

/-- A test that reports nothing, with nothing declared. -/
def ofStep (step : Context τ ν → τ → Option (Context τ ν)) : Predicate τ ν :=
  ofTest fun c t => pure (step c t)

/-- Looks at the token alone. -/
def satisfying (p : τ → Bool) : Predicate τ ν := ofStep fun c t => if p t then some c else none

/-- Accepts every token. -/
def always : Predicate τ ν := ofStep fun c _ => some c

/-- Rejects every token. -/
def never : Predicate τ ν := ofStep fun _ _ => none

/-- Accepts every token and records it. -/
def recording : Predicate τ ν := ofStep fun c t => some (c.record t)

/-- Accepts every token and reports that the match came this way. -/
def checkpoint (label : String) : Predicate τ ν :=
  ofTest fun c t => ⟨some c, [.checkpoint label c.position t]⟩

/-! ### Slots -/

/-- Declares that the test reads the slot. -/
def requiring (p : Predicate τ ν) (s : Slot) : Predicate τ ν :=
  { p with requires := adjoin p.requires s }

/-- Declares that the test binds the slot whenever it succeeds. -/
def binding (p : Predicate τ ν) (s : Slot) : Predicate τ ν :=
  { p with binds := adjoin p.binds s }

/-- Binds the slot to what is extracted from the token; fails if nothing is, or if the slot is bound
already. -/
def capture (s : Slot) (extract : τ → Option ν) : Predicate τ ν :=
  (ofStep fun c t => (extract t).bind (c.store s)).binding s

/-- Accepts a token from which a value is extracted that equals the one that the slot is bound to.  What
is equal is up to the values; no law is asked of it. -/
def equalsBound [BEq ν] (s : Slot) (extract : τ → Option ν) : Predicate τ ν :=
  (ofStep fun c t =>
    (c.value? s).bind fun bound => (extract t).bind fun value =>
      if bound == value then some c else none).requiring s

/-! ### Connectives

A conjunction tests its right part in the context that the left part leaves, and does not test it at all
if the left part rejects.  A disjunction tests its right part only if the left part rejects, in the
context that both started from.
-/

/-- Both hold, the second in the context that the first leaves.  What the first binds, the second may
read. -/
def and (p q : Predicate τ ν) : Predicate τ ν where
  test c t := do
    match ← p.test c t with
    | none => pure none
    | some d => q.test d t
  requires := adjoinAll p.requires (q.requires.filter (· ∉ p.binds))
  binds := adjoinAll p.binds q.binds

/-- The first that holds decides; only what both bind is sure to be bound. -/
def or (p q : Predicate τ ν) : Predicate τ ν where
  test c t := do
    match ← p.test c t with
    | none => q.test c t
    | some d => pure (some d)
  requires := adjoinAll p.requires q.requires
  binds := p.binds.filter (· ∈ q.binds)

/-- Holds where the other fails, and leaves the context as it was. -/
def negate (p : Predicate τ ν) : Predicate τ ν where
  test c t := do
    match ← p.test c t with
    | none => pure (some c)
    | some _ => pure none
  requires := p.requires
  binds := []

/-- The declarations, as a text for diagnosis. -/
def describe (p : Predicate τ ν) : String :=
  "Match \x7b requires: " ++ Slot.describeAll p.requires ++
    ", binds: " ++ Slot.describeAll p.binds ++ ", .. \x7d"

section Values

variable (c : Context τ ν) (t : τ)

/-- A test that reports nothing gives what its step gives. -/
@[simp] theorem value_test_ofStep (step : Context τ ν → τ → Option (Context τ ν)) :
    ((ofStep step).test c t).value = step c t := rfl

/-- The context is kept if the token passes. -/
@[simp] theorem value_test_satisfying (p : τ → Bool) :
    ((satisfying p : Predicate τ ν).test c t).value = if p t then some c else none := rfl

/-- Every token is accepted with nothing changed. -/
@[simp] theorem value_test_always : ((always : Predicate τ ν).test c t).value = some c := rfl

/-- No token is accepted. -/
@[simp] theorem value_test_never : ((never : Predicate τ ν).test c t).value = none := rfl

/-- The token is recorded. -/
@[simp] theorem value_test_recording :
    ((recording : Predicate τ ν).test c t).value = some (c.record t) := rfl

/-- A checkpoint changes nothing. -/
@[simp] theorem value_test_checkpoint (label : String) :
    ((checkpoint label : Predicate τ ν).test c t).value = some c := rfl

/-- Declaring what is read does not change the test. -/
@[simp] theorem value_test_requiring (p : Predicate τ ν) (s : Slot) :
    ((p.requiring s).test c t).value = (p.test c t).value := rfl

/-- Declaring what is bound does not change the test. -/
@[simp] theorem value_test_binding (p : Predicate τ ν) (s : Slot) :
    ((p.binding s).test c t).value = (p.test c t).value := rfl

/-- What is extracted is bound. -/
@[simp] theorem value_test_capture (s : Slot) (extract : τ → Option ν) :
    ((capture s extract).test c t).value = (extract t).bind (c.store s) := rfl

/-- What is extracted is compared with what is bound. -/
@[simp] theorem value_test_equalsBound [BEq ν] (s : Slot) (extract : τ → Option ν) :
    ((equalsBound s extract).test c t).value =
      (c.value? s).bind fun bound => (extract t).bind fun value =>
        if bound == value then some c else none := rfl

/-- The second predicate goes on from the context that the first leaves. -/
@[simp] theorem value_test_and (p q : Predicate τ ν) :
    ((p.and q).test c t).value = (p.test c t).value.bind fun d => (q.test d t).value := by
  simp only [and, Logged.value_bind]
  cases (p.test c t).value <;> rfl

/-- The second predicate is asked only if the first rejects. -/
@[simp] theorem value_test_or (p q : Predicate τ ν) :
    ((p.or q).test c t).value = (p.test c t).value.or (q.test c t).value := by
  simp only [or, Logged.value_bind]
  cases (p.test c t).value <;> simp

/-- A negation never changes the context. -/
@[simp] theorem value_test_negate (p : Predicate τ ν) :
    (p.negate.test c t).value = if (p.test c t).value.isSome then none else some c := by
  simp only [negate, Logged.value_bind]
  cases (p.test c t).value <;> simp

end Values

section Declarations

/-- What a conjunction needs: what the first needs, and what the second needs and the first does not
bind. -/
theorem mem_requires_and {p q : Predicate τ ν} {s : Slot} :
    s ∈ (p.and q).requires ↔ s ∈ p.requires ∨ s ∈ q.requires ∧ s ∉ p.binds := by
  simp [and, mem_adjoinAll]

/-- A conjunction binds what either operand binds. -/
theorem mem_binds_and {p q : Predicate τ ν} {s : Slot} :
    s ∈ (p.and q).binds ↔ s ∈ p.binds ∨ s ∈ q.binds := mem_adjoinAll

/-- An alternative needs what either operand needs. -/
theorem mem_requires_or {p q : Predicate τ ν} {s : Slot} :
    s ∈ (p.or q).requires ↔ s ∈ p.requires ∨ s ∈ q.requires := mem_adjoinAll

/-- An alternative binds what both operands bind. -/
theorem mem_binds_or {p q : Predicate τ ν} {s : Slot} :
    s ∈ (p.or q).binds ↔ s ∈ p.binds ∧ s ∈ q.binds := by
  simp [or]

end Declarations

end Predicate
end Sequence
end LoopPlumbing
