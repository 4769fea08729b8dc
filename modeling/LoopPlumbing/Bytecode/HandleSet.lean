/- # Sets of handles

A set of handles is kept as a list in ascending order, so that two sets with the same members are equal
(`HandleSet.ext`).

The order of the handles carries no meaning.  It makes equality of sets equality of lists, so it can be
decided and a set can be shown.
-/

import LoopPlumbing.Bytecode.Instruction

namespace LoopPlumbing
namespace Bytecode

/-- A finite set of handles, listed in ascending order. -/
structure HandleSet where
  toList : List Handle
  ascending : toList.Pairwise fun a b => a.number < b.number

namespace HandleSet

/-- Membership is membership in the list. -/
instance : Membership Handle HandleSet := ⟨fun s h => h ∈ s.toList⟩

/-- Membership is decided by looking through the list. -/
instance (h : Handle) (s : HandleSet) : Decidable (h ∈ s) :=
  inferInstanceAs (Decidable (h ∈ s.toList))

/-- Sets of handles are equal if their lists are. -/
instance : DecidableEq HandleSet := fun a b =>
  decidable_of_iff (a.toList = b.toList)
    ⟨fun h => by cases a; cases b; cases h; rfl, congrArg _⟩

/-- The list of a set has its elements and no others. -/
theorem mem_toList {h : Handle} {s : HandleSet} : h ∈ s.toList ↔ h ∈ s := Iff.rfl

/-- Two ascending lists with the same members are equal. -/
theorem eq_of_ascending {a b : List Handle} (ha : a.Pairwise fun x y => x.number < y.number)
    (hb : b.Pairwise fun x y => x.number < y.number) (same : ∀ h, h ∈ a ↔ h ∈ b) : a = b := by
  induction a generalizing b with
  | nil => exact (List.eq_nil_iff_forall_not_mem.2 fun h hm => by simpa using (same h).2 hm).symm
  | cons x a ih =>
    cases b with
    | nil => simpa using (same x).1 List.mem_cons_self
    | cons y b =>
      obtain ⟨hx, ta⟩ := List.pairwise_cons.1 ha
      obtain ⟨hy, tb⟩ := List.pairwise_cons.1 hb
      have key : x = y := by
        rcases List.mem_cons.1 ((same x).1 List.mem_cons_self) with h | h
        · exact h
        rcases List.mem_cons.1 ((same y).2 List.mem_cons_self) with h' | h'
        · exact h'.symm
        exact absurd (UInt64.lt_trans (hy x h) (hx y h')) (UInt64.lt_irrefl _)
      subst key
      refine congrArg (x :: ·) (ih ta tb fun h => ⟨fun hm => ?_, fun hm => ?_⟩)
      · rcases List.mem_cons.1 ((same h).1 (List.mem_cons_of_mem _ hm)) with e | hm'
        · exact absurd (e ▸ hx h hm) (UInt64.lt_irrefl _)
        · exact hm'
      · rcases List.mem_cons.1 ((same h).2 (List.mem_cons_of_mem _ hm)) with e | hm'
        · exact absurd (e ▸ hy h hm) (UInt64.lt_irrefl _)
        · exact hm'

/-- **Sets with the same members are equal.** -/
theorem ext {a b : HandleSet} (same : ∀ h, h ∈ a ↔ h ∈ b) : a = b := by
  obtain ⟨a, ha⟩ := a
  obtain ⟨b, hb⟩ := b
  cases eq_of_ascending ha hb same
  rfl

/-- No handle. -/
def empty : HandleSet := ⟨[], .nil⟩

/-- Nothing is in the empty set. -/
theorem not_mem_empty (h : Handle) : h ∉ empty := List.not_mem_nil

/-! ### Insertion

A handle is put before the first one with a greater number, and left out if it is there.
-/

/-- Adds a handle to an ascending list unless it is there already. -/
def insertInto (h : Handle) : List Handle → List Handle
  | [] => [h]
  | k :: ks =>
    if h.number < k.number then h :: k :: ks
    else if h = k then k :: ks
    else k :: insertInto h ks

/-- A handle that is inserted joins the others. -/
theorem mem_insertInto {h x : Handle} {l : List Handle} :
    x ∈ insertInto h l ↔ x = h ∨ x ∈ l := by
  induction l with
  | nil => simp [insertInto]
  | cons k ks ih =>
    unfold insertInto
    split
    · simp
    · split
      · next e => simp [e]
      · simp [ih, or_left_comm]

/-- An ascending list stays ascending. -/
theorem ascending_insertInto (h : Handle) {l : List Handle}
    (hl : l.Pairwise fun x y => x.number < y.number) :
    (insertInto h l).Pairwise fun x y => x.number < y.number := by
  induction l with
  | nil => exact List.pairwise_singleton _ _
  | cons k ks ih =>
    have ⟨hk, hks⟩ := List.pairwise_cons.1 hl
    unfold insertInto
    split
    · next lt =>
      refine List.pairwise_cons.2 ⟨fun x hx => ?_, hl⟩
      rcases List.mem_cons.1 hx with rfl | hx
      · exact lt
      · exact UInt64.lt_trans lt (hk x hx)
    · next ge =>
      split
      · exact hl
      · next ne =>
        refine List.pairwise_cons.2 ⟨fun x hx => ?_, ih hks⟩
        rcases mem_insertInto.1 hx with rfl | hx
        · refine UInt64.lt_of_le_of_ne (UInt64.not_lt.1 ge) fun e => ne ?_
          cases x; cases k; exact congrArg _ e.symm
        · exact hk x hx

/-- Adds a handle. -/
def insert (s : HandleSet) (h : Handle) : HandleSet :=
  ⟨insertInto h s.toList, ascending_insertInto h s.ascending⟩

/-- What is in a set once a handle was added. -/
@[simp] theorem mem_insert {s : HandleSet} {h x : Handle} : x ∈ s.insert h ↔ x = h ∨ x ∈ s :=
  mem_insertInto

/-- The handles of a list. -/
def ofList (l : List Handle) : HandleSet := l.foldr (fun h s => s.insert h) empty

/-- A set made from a list has the elements of the list. -/
@[simp] theorem mem_ofList {l : List Handle} {x : Handle} : x ∈ ofList l ↔ x ∈ l := by
  induction l with
  | nil => exact iff_of_false (not_mem_empty x) List.not_mem_nil
  | cons h l ih => exact mem_insert.trans ((or_congr_right ih).trans List.mem_cons.symm)

/-- The number of handles. -/
def size (s : HandleSet) : Nat := s.toList.length

end HandleSet
end Bytecode
end LoopPlumbing
