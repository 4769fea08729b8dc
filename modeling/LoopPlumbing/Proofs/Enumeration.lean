/- # Lists that enumerate a relation

A list enumerates a relation if it can be labelled with indices, no index twice, so that the labelled
elements are exactly the related pairs.  An index then leads to one element at most, and the list holds
exactly one element for each index that leads to any: repeated elements stand for different indices.

Lists that are put together by `++`, `flatMap`, `map` and `filter` enumerate the relations that are put
together in the same way, so a search written with these functions is described by its cases.
-/

import Mathlib.Data.List.Nodup
import Mathlib.Tactic.Choose

namespace LoopPlumbing

variable {α β γ δ : Type}

/-- `l` has exactly one element for each index that `R` relates to something, and it is the one that the
index is related to. -/
def Enumerates (R : α → β → Prop) (l : List β) : Prop :=
  ∃ xs : List (α × β), (xs.map Prod.fst).Nodup ∧ xs.map Prod.snd = l ∧ ∀ a b, (a, b) ∈ xs ↔ R a b

namespace Enumerates

variable {R : α → β → Prop} {l : List β}

/-- Only which pairs are related matters, so an enumeration may be restated for an equivalent relation. -/
theorem congr {R' : α → β → Prop} (h : Enumerates R l) (hR : ∀ a b, R a b ↔ R' a b) :
    Enumerates R' l := by
  obtain ⟨xs, nodup, rfl, mem⟩ := h
  exact ⟨xs, nodup, rfl, fun a b => (mem a b).trans (hR a b)⟩

/-- The elements of the list are those that some index leads to. -/
theorem mem_iff (h : Enumerates R l) {b : β} : b ∈ l ↔ ∃ a, R a b := by
  obtain ⟨xs, -, rfl, mem⟩ := h
  simp only [List.mem_map, Prod.exists, mem]
  constructor
  · rintro ⟨a, b, hab, rfl⟩
    exact ⟨a, hab⟩
  · rintro ⟨a, hab⟩
    exact ⟨a, b, hab, rfl⟩

/-- If all indices that lead to something are one, there is one element at most. -/
theorem length_le_one (h : Enumerates R l) (unique : ∀ a a' b b', R a b → R a' b' → a = a') :
    l.length ≤ 1 := by
  obtain ⟨xs, nodup, rfl, mem⟩ := h
  cases xs with
  | nil => exact Nat.zero_le _
  | cons x xs =>
      cases xs with
      | nil => exact Nat.le_refl _
      | cons y xs =>
          have hx : R x.1 x.2 := (mem _ _).1 List.mem_cons_self
          have hy : R y.1 y.2 := (mem _ _).1 (List.mem_cons_of_mem _ List.mem_cons_self)
          have first : x.1 ∉ ((y :: xs).map Prod.fst) := (List.nodup_cons.1 nodup).1
          refine absurd ?_ first
          rw [unique _ _ _ _ hx hy]
          exact List.mem_cons_self

/-! ### Short lists -/

/-- Nothing is enumerated by the empty list. -/
theorem nil (h : ∀ a b, ¬R a b) : Enumerates R [] :=
  ⟨[], List.nodup_nil, rfl, fun a b => by simp [h]⟩

/-- One index that leads to one element. -/
theorem singleton (a : α) (b : β) : Enumerates (fun a' b' => a' = a ∧ b' = b) [b] :=
  ⟨[(a, b)], List.nodup_singleton _, rfl, fun a' b' => by simp⟩

/-- What may be missing has one index if it is there and none if not. -/
theorem toList (a : α) (o : Option β) : Enumerates (fun a' b => a' = a ∧ o = some b) o.toList := by
  cases o with
  | none => exact nil fun _ _ h => by simp at h
  | some b => exact (singleton a b).congr fun _ _ => by simp [eq_comm]

/-- A list without repetition enumerates its elements by themselves. -/
theorem of_nodup {l : List α} (h : l.Nodup) : Enumerates (fun a b => a ∈ l ∧ b = a) l := by
  refine ⟨l.map fun a => (a, a), ?_, ?_, fun a b => ?_⟩
  · rw [List.map_map]
    exact h.map Function.injective_id
  · rw [List.map_map]
    exact List.map_id l
  · simp only [List.mem_map, Prod.mk.injEq]
    constructor
    · rintro ⟨c, hc, rfl, rfl⟩
      exact ⟨hc, rfl⟩
    · rintro ⟨ha, rfl⟩
      exact ⟨b, ha, rfl, rfl⟩

/-! ### Lists made from lists -/

/-- The order does not matter. -/
theorem reverse (h : Enumerates R l) : Enumerates R l.reverse := by
  obtain ⟨xs, nodup, rfl, mem⟩ := h
  refine ⟨xs.reverse, ?_, List.map_reverse, fun a b => List.mem_reverse.trans (mem a b)⟩
  rw [List.map_reverse]
  exact List.nodup_reverse.2 nodup

/-- What a filter keeps is enumerated by the indices that lead to a kept element. -/
theorem filter (h : Enumerates R l) (p : β → Bool) :
    Enumerates (fun a b => R a b ∧ p b = true) (l.filter p) := by
  obtain ⟨xs, nodup, rfl, mem⟩ := h
  refine ⟨xs.filter fun x => p x.2, ?_, ?_, fun a b => ?_⟩
  · exact nodup.sublist (List.filter_sublist.map _)
  · rw [List.filter_map]
    rfl
  · rw [List.mem_filter, mem]

/-- What is enumerated may be mapped. -/
theorem map (h : Enumerates R l) (f : β → γ) :
    Enumerates (fun a c => ∃ b, R a b ∧ c = f b) (l.map f) := by
  obtain ⟨xs, nodup, rfl, mem⟩ := h
  refine ⟨xs.map fun x => (x.1, f x.2), ?_, ?_, fun a c => ?_⟩
  · rw [List.map_map]
    exact nodup
  · rw [List.map_map, List.map_map]
    rfl
  · simp only [List.mem_map, Prod.mk.injEq, Prod.exists, mem]
    constructor
    · rintro ⟨a, b, hab, rfl, rfl⟩
      exact ⟨b, hab, rfl⟩
    · rintro ⟨b, hab, rfl⟩
      exact ⟨a, b, hab, rfl, rfl⟩

/-- The indices may be renamed, if no two get one name. -/
theorem reindex (h : Enumerates R l) {f : α → γ} (hf : Function.Injective f) :
    Enumerates (fun c b => ∃ a, R a b ∧ c = f a) l := by
  obtain ⟨xs, nodup, rfl, mem⟩ := h
  refine ⟨xs.map fun x => (f x.1, x.2), ?_, ?_, fun c b => ?_⟩
  · have : (xs.map fun x => (f x.1, x.2)).map Prod.fst = (xs.map Prod.fst).map f := by
      rw [List.map_map, List.map_map]
      rfl
    rw [this]
    exact nodup.map hf
  · rw [List.map_map]
    rfl
  · simp only [List.mem_map, Prod.mk.injEq, Prod.exists, mem]
    constructor
    · rintro ⟨a, b, hab, rfl, rfl⟩
      exact ⟨a, hab, rfl⟩
    · rintro ⟨a, hab, rfl⟩
      exact ⟨a, b, hab, rfl, rfl⟩

/-- Two lists over different indices make one list over both. -/
theorem append {S : α → β → Prop} {l' : List β} (h : Enumerates R l) (h' : Enumerates S l')
    (apart : ∀ a b b', R a b → ¬S a b') : Enumerates (fun a b => R a b ∨ S a b) (l ++ l') := by
  obtain ⟨xs, nodup, rfl, mem⟩ := h
  obtain ⟨ys, nodup', rfl, mem'⟩ := h'
  refine ⟨xs ++ ys, ?_, List.map_append, fun a b => by rw [List.mem_append, mem, mem']⟩
  rw [List.map_append, List.nodup_append]
  refine ⟨nodup, nodup', fun a ha a' ha' e => ?_⟩
  obtain ⟨x, hx, rfl⟩ := List.mem_map.1 ha
  obtain ⟨y, hy, rfl⟩ := List.mem_map.1 ha'
  have hS : S x.1 y.2 := e ▸ (mem' _ _).1 hy
  exact apart _ _ _ ((mem _ _).1 hx) hS

/-! ### Searches in stages

The index of an outcome of two stages is a pair, and different pairs may well lead to equal outcomes; these are then
listed as often.
-/

/-- **A search in two stages.**  If the second stage enumerates from each outcome of the first, both
together enumerate the combined indices. -/
theorem bind (h : Enumerates R l) {S : β → γ → δ → Prop} {f : β → List δ}
    (hS : ∀ b ∈ l, Enumerates (S b) (f b)) :
    Enumerates (fun (x : α × γ) d => ∃ b, R x.1 b ∧ S b x.2 d) (l.flatMap f) := by
  choose! ys nodup' snd' mem' using hS
  obtain ⟨xs, nodup, rfl, mem⟩ := h
  have inside : ∀ x ∈ xs, x.2 ∈ xs.map Prod.snd := fun x hx => List.mem_map_of_mem hx
  refine ⟨xs.flatMap fun x => (ys x.2).map fun y => ((x.1, y.1), y.2), ?_, ?_, fun x d => ?_⟩
  · rw [List.map_flatMap, List.nodup_flatMap]
    constructor
    · intro x hx
      have : ((ys x.2).map fun y => ((x.1, y.1), y.2)).map Prod.fst =
          ((ys x.2).map Prod.fst).map (Prod.mk x.1) := by
        rw [List.map_map, List.map_map]
        rfl
      rw [this]
      exact (nodup' _ (inside x hx)).map fun _ _ e => (Prod.mk.inj e).2
    · -- Outcomes of different first indices differ already in the first index.
      refine (List.pairwise_map.1 nodup).imp fun {x x'} hne => ?_
      rw [Function.onFun_apply, List.disjoint_left]
      intro z hz hz'
      obtain ⟨w, hw, rfl⟩ := List.mem_map.1 hz
      obtain ⟨y, -, rfl⟩ := List.mem_map.1 hw
      obtain ⟨w', hw', e⟩ := List.mem_map.1 hz'
      obtain ⟨y', -, rfl⟩ := List.mem_map.1 hw'
      exact hne (Prod.mk.inj e).1.symm
  · rw [List.map_flatMap, List.flatMap_map]
    refine List.flatMap_congr fun x hx => ?_
    rw [List.map_map, ← snd' _ (inside x hx)]
    rfl
  · simp only [List.mem_flatMap, List.mem_map, Prod.exists, Prod.mk.injEq]
    constructor
    · rintro ⟨a, b, hab, c, d, hcd, rfl, rfl⟩
      exact ⟨b, (mem a b).1 hab, (mem' b (inside _ hab) c d).1 hcd⟩
    · rintro ⟨b, hR, hS⟩
      have hab := (mem _ b).2 hR
      exact ⟨x.1, b, hab, x.2, d, (mem' b (inside _ hab) _ d).2 hS, rfl, rfl⟩

/-- A second stage that leads to one element at most needs no index of its own. -/
theorem optional (h : Enumerates R l) (f : β → Option γ) :
    Enumerates (fun a c => ∃ b, R a b ∧ f b = some c) (l.flatMap fun b => (f b).toList) := by
  have both := h.bind fun b _ => toList () (f b)
  have single : Function.Injective (Prod.fst : α × Unit → α) := fun x y e => Prod.ext e rfl
  refine (both.reindex single).congr fun a c => ?_
  constructor
  · rintro ⟨x, ⟨b, hR, -, hc⟩, rfl⟩
    exact ⟨b, hR, hc⟩
  · rintro ⟨b, hR, hc⟩
    exact ⟨(a, ()), ⟨b, hR, rfl, hc⟩, rfl⟩

end Enumerates
end LoopPlumbing
