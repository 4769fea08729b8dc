/- # Patterns over a stream

A pattern is a regular expression whose letters are predicates.  `check` accepts a pattern only if

* no repetition has a body that can match nothing, and
* every slot that a predicate reads is bound before, whichever way the match came there,

and then tells which slots are bound on every way through.  Of several faults it names the first from
left to right, an empty repetition before what stands inside it.
-/

import LoopPlumbing.Fault
import LoopPlumbing.Sequence.Predicate

namespace LoopPlumbing
namespace Sequence

/-- A regular expression over predicates. -/
inductive Pattern (τ ν : Type) where
  /-- One token that satisfies the predicate. -/
  | token (p : Predicate τ ν)
  /-- One pattern, then another. -/
  | seq (first second : Pattern τ ν)
  /-- Either of two patterns. -/
  | alt (left right : Pattern τ ν)
  /-- Any number of rounds. -/
  | star (body : Pattern τ ν)

namespace Pattern

variable {τ ν : Type}

/-- Any single token. -/
def any : Pattern τ ν := token .always

/-- The pattern, then one token. -/
def thenToken (q : Pattern τ ν) (p : Predicate τ ν) : Pattern τ ν := q.seq (token p)

/-- The pattern, then any number of rounds of another. -/
def thenStar (q body : Pattern τ ν) : Pattern τ ν := q.seq body.star

/-- The pattern, then at least one round of another. -/
def thenPlus (q body : Pattern τ ν) : Pattern τ ν := (q.seq body).thenStar body

/-- Whether the pattern can match nothing. -/
def nullable : Pattern τ ν → Bool
  | token _ => false
  | seq a b => a.nullable && b.nullable
  | alt a b => a.nullable || b.nullable
  | star _ => true

/-- The slots bound after the pattern on every way through it, if `bound` are bound before; or the
first fault. -/
def check : Pattern τ ν → List Slot → Except Fault (List Slot)
  | token p, bound =>
    match p.requires.find? (· ∉ bound) with
    | some s => .error (.unboundSlot s.name)
    | none => .ok (bound ++ p.binds)
  | seq a b, bound => do b.check (← a.check bound)
  | alt a b, bound => do
    let left ← a.check bound
    let right ← b.check bound
    return left.filter (· ∈ right)
  | star a, bound =>
    if a.nullable then .error .emptyRepetition
    else do
      let _ ← a.check bound
      return bound

/-- The shape of the pattern. -/
def shape : Pattern τ ν → String
  | token _ => "token"
  | seq a b => "(" ++ a.shape ++ " " ++ b.shape ++ ")"
  | alt a b => "(" ++ a.shape ++ " | " ++ b.shape ++ ")"
  | star a => a.shape ++ "*"

/-- The pattern, as a text for diagnosis. -/
def describe (q : Pattern τ ν) : String := "SequenceQuery(" ++ q.shape ++ ")"

end Pattern
end Sequence
end LoopPlumbing
