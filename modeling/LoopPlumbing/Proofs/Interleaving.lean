/- # Elements inserted into a list

`interleave gaps l` is the list `l` with the elements `gaps 0` inserted before its first element, `gaps 1`
before its second, and so on, the last ones behind the end.  An element that stood at `i` then stands at
`shifted gaps i` (`getElem?_interleave`).  A filter that drops all that was inserted does not see the
insertion (`filter_interleave`).
-/

import Mathlib.Data.List.Basic

namespace LoopPlumbing

variable {α : Type}

/-- The list with elements inserted before, between and behind its elements. -/
def interleave : (ℕ → List α) → List α → List α
  | gaps, [] => gaps 0
  | gaps, a :: l => gaps 0 ++ a :: interleave (fun i => gaps (i + 1)) l

/-- Where an element that stood at a position stands after the insertion. -/
def shifted : (ℕ → List α) → ℕ → ℕ
  | gaps, 0 => (gaps 0).length
  | gaps, i + 1 => (gaps 0).length + 1 + shifted (fun i => gaps (i + 1)) i

/-- **Each element is found where it has moved.** -/
theorem getElem?_interleave (gaps : ℕ → List α) (l : List α) (i : ℕ) :
    (interleave gaps l)[shifted gaps i]? = l[i]? := by
  induction l generalizing gaps i with
  | nil =>
      rw [interleave, List.getElem?_nil]
      refine List.getElem?_eq_none ?_
      cases i with
      | zero => exact Nat.le.refl
      | succ i =>
          rw [shifted]
          omega
  | cons a l ih =>
      cases i with
      | zero =>
          rw [interleave, shifted, List.getElem?_append_right Nat.le.refl, Nat.sub_self]
          rfl
      | succ i =>
          have behind : (gaps 0).length + 1 + shifted (fun i => gaps (i + 1)) i - (gaps 0).length =
              shifted (fun i => gaps (i + 1)) i + 1 := by omega
          rw [interleave, shifted, List.getElem?_append_right (by omega), behind, List.getElem?_cons_succ,
            List.getElem?_cons_succ, ih]

/-- What stood within the list stands within the longer one. -/
theorem shifted_lt_length_iff {gaps : ℕ → List α} {l : List α} {i : ℕ} :
    shifted gaps i < (interleave gaps l).length ↔ i < l.length := by
  rw [← Nat.not_le, ← Nat.not_le, ← List.getElem?_eq_none_iff, ← List.getElem?_eq_none_iff,
    getElem?_interleave]

/-- **A filter that drops all that was inserted does not see the insertion.** -/
theorem filter_interleave {gaps : ℕ → List α} {p : α → Bool} (h : ∀ i, ∀ a ∈ gaps i, p a = false)
    (l : List α) : (interleave gaps l).filter p = l.filter p := by
  induction l generalizing gaps with
  | nil =>
      rw [interleave, List.filter_nil, List.filter_eq_nil_iff]
      exact fun a ha => by simp [h 0 a ha]
  | cons a l ih =>
      have dropped : (gaps 0).filter p = [] :=
        List.filter_eq_nil_iff.2 fun b hb => by simp [h 0 b hb]
      rw [interleave, List.filter_append, dropped, List.nil_append, List.filter_cons, List.filter_cons,
        ih fun i => h (i + 1)]

end LoopPlumbing
