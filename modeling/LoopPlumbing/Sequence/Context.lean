/- # Contexts

The state of one branch of a match: the cursor, what the slots are bound to, the tokens recorded so
far, and whether the branch is traced.  A context is a value, so a branch can not see what a sibling
binds or records.

Binding is write-once: `store` succeeds exactly on a slot that is not bound (`store_eq_some_iff`), and
afterwards that slot holds the value and every other slot what it held before (`value?_store`).
-/

import LoopPlumbing.Sequence.Slot

namespace LoopPlumbing
namespace Sequence

/-- One branch of a match over tokens `τ` whose slots hold values `ν`; the newest binding and the
newest recording are the first binding and the last recording. -/
structure Context (τ ν : Type) where
  position : Nat
  bindings : List (Nat × ν)
  recorded : List τ
  debug : Bool
deriving DecidableEq

namespace Context

variable {τ ν : Type}

/-- Nothing bound, nothing recorded, at the start of the stream, not traced. -/
def start : Context τ ν := ⟨0, [], [], false⟩

/-- The same branch with the cursor elsewhere. -/
def moveTo (c : Context τ ν) (position : Nat) : Context τ ν := { c with position }

/-- The same branch, traced or not. -/
def withDebug (c : Context τ ν) (debug : Bool) : Context τ ν := { c with debug }

/-- What the slot is bound to in this branch. -/
def value? (c : Context τ ν) (s : Slot) : Option ν := c.bindings.lookup s.id

/-- Whether the slot is bound in this branch. -/
def isBound (c : Context τ ν) (s : Slot) : Bool := (c.value? s).isSome

/-- Binds a slot; nothing if it is bound already. -/
def store (c : Context τ ν) (s : Slot) (v : ν) : Option (Context τ ν) :=
  if c.isBound s then none else some { c with bindings := (s.id, v) :: c.bindings }

/-- Adds a token behind those recorded before. -/
def record (c : Context τ ν) (t : τ) : Context τ ν := { c with recorded := c.recorded ++ [t] }

/-- **Binding succeeds exactly on a slot that is not bound.** -/
theorem store_eq_some_iff {c d : Context τ ν} {s : Slot} {v : ν} :
    c.store s v = some d ↔
      c.isBound s = false ∧ d = { c with bindings := (s.id, v) :: c.bindings } := by
  unfold store
  split
  · next hb => simp [hb]
  · next hb => exact ⟨fun h => ⟨by simpa using hb, (Option.some.inj h).symm⟩, fun h => h.2 ▸ rfl⟩

/-- What slots hold once one of them was bound. -/
theorem value?_store {c d : Context τ ν} {s : Slot} {v : ν} (h : c.store s v = some d) (t : Slot) :
    d.value? t = if t.id = s.id then some v else c.value? t := by
  obtain ⟨-, rfl⟩ := store_eq_some_iff.1 h
  by_cases e : t.id = s.id
  · simp [value?, e]
  · have : (t.id == s.id) = false := by simpa using e
    simp [value?, List.lookup_cons, e, this]

end Context
end Sequence
end LoopPlumbing
