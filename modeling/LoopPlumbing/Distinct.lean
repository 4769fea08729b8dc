/- # Lists without repetition

A finite set whose order is shown is kept as a list without repetition, in the order of first mention.
`adjoin` adds one element and `adjoinAll` several; neither ever repeats one.

The order matters to the slots that a predicate requires: the check complains of the first one that is
not bound.
-/

namespace LoopPlumbing

variable {α : Type} [DecidableEq α]

/-- Adds an element behind the others unless it is there already. -/
def adjoin (s : List α) (a : α) : List α := if a ∈ s then s else s ++ [a]

/-- What is in the list once an element was added. -/
theorem mem_adjoin {s : List α} {a b : α} : b ∈ adjoin s a ↔ b ∈ s ∨ b = a := by
  unfold adjoin
  split
  · next ha => exact ⟨.inl, fun h => h.elim id fun e => e ▸ ha⟩
  · simp

/-- An element that a filter drops may be left out beforehand. -/
theorem filter_adjoin (s : List α) (a : α) (p : α → Bool) :
    (adjoin s a).filter p = if p a then adjoin (s.filter p) a else s.filter p := by
  unfold adjoin
  cases h : p a <;> split <;> simp [*]

/-! ### Adding several -/

/-- Adds several elements in order. -/
def adjoinAll (s more : List α) : List α := more.foldl adjoin s

/-- The first element is added before the others. -/
theorem adjoinAll_cons (s more : List α) (a : α) :
    adjoinAll s (a :: more) = adjoinAll (adjoin s a) more := rfl

/-- What is added at once may be added in two parts. -/
theorem adjoinAll_append (s l more : List α) :
    adjoinAll s (l ++ more) = adjoinAll (adjoinAll s l) more := List.foldl_append

/-- What is in the list once others were added. -/
theorem mem_adjoinAll {s more : List α} {b : α} : b ∈ adjoinAll s more ↔ b ∈ s ∨ b ∈ more := by
  induction more generalizing s with
  | nil => simp [adjoinAll]
  | cons a more ih => rw [adjoinAll_cons, ih, mem_adjoin, List.mem_cons, or_assoc]

/-- **What is added may be put together first.** -/
theorem adjoinAll_adjoinAll (s l more : List α) :
    adjoinAll s (adjoinAll l more) = adjoinAll (adjoinAll s l) more := by
  induction more generalizing l with
  | nil => rfl
  | cons a more ih =>
    have one : adjoinAll s (adjoin l a) = adjoin (adjoinAll s l) a := by
      unfold adjoin
      split
      · next ha => rw [if_pos (mem_adjoinAll.2 (.inr ha))]
      · rw [adjoinAll_append]
        rfl
    rw [adjoinAll_cons, adjoinAll_cons, ih, one]

/-- What is left out may be left out first. -/
theorem filter_adjoinAll (s more : List α) (p : α → Bool) :
    (adjoinAll s more).filter p = adjoinAll (s.filter p) (more.filter p) := by
  induction more generalizing s with
  | nil => rfl
  | cons a more ih =>
    rw [adjoinAll_cons, ih, filter_adjoin, List.filter_cons]
    cases p a <;> rfl

/-- Of a list without repetition, what is not there yet is added as it stands. -/
theorem adjoinAll_eq_append {more : List α} (h : more.Nodup) (s : List α) :
    adjoinAll s more = s ++ more.filter (· ∉ s) := by
  induction more generalizing s with
  | nil => exact (List.append_nil s).symm
  | cons a more ih =>
    obtain ⟨ha, hmore⟩ := List.nodup_cons.1 h
    rw [adjoinAll_cons, ih hmore, adjoin]
    split
    · next hs => rw [List.filter_cons_of_neg (by simpa using hs)]
    · next hs =>
      have rest : more.filter (· ∉ s ++ [a]) = more.filter (· ∉ s) :=
        List.filter_congr fun b hb => by
          have : b ≠ a := fun e => ha (e ▸ hb)
          simp [this]
      rw [rest, List.filter_cons_of_pos (by simpa using hs), List.append_assoc, List.singleton_append]

end LoopPlumbing
