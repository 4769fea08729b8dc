/- # The running order of children

Children have a kind each, and a pipeline orders them by it.  The running order of the children given has two
properties: kinds never decrease (`ordered_inRunningOrder`), and the children of one kind stand as they were
given (`ofKind_inRunningOrder`).  Together they leave no choice (`eq_of_ordered`): the first of two such lists
has the least kind of all, and is the first given of that kind, in the one list as in the other.  So orders
of construction that agree kind by kind have one running order (`inRunningOrder_congr`).

A child is named by an index, so that two children that are alike stay two.
-/

import LoopPlumbing.Pipeline

namespace LoopPlumbing
namespace Pipeline

variable {ε ι : Type} {kind : ι → StageKind}

/-- The children of one kind, as they stand. -/
def ofKind (kind : ι → StageKind) (k : StageKind) (line : List ι) : List ι :=
  line.filter fun i => kind i = k

/-- Whether the kinds never decrease along a line of children. -/
def Ordered (kind : ι → StageKind) (line : List ι) : Prop :=
  line.Pairwise fun i j => (kind i).rank ≤ (kind j).rank

/-- The children of one kind are those in the line that have it. -/
theorem mem_ofKind {k : StageKind} {line : List ι} {i : ι} :
    i ∈ ofKind kind k line ↔ i ∈ line ∧ kind i = k := by
  simp [ofKind]

/-- The first child is the first of its own kind, and of no other. -/
theorem ofKind_cons (k : StageKind) (i : ι) (line : List ι) :
    ofKind kind k (i :: line) = if kind i = k then i :: ofKind kind k line else ofKind kind k line := by
  simp [ofKind, List.filter_cons]

/-- Lists that agree kind by kind have the same members. -/
theorem mem_of_ofKind_eq {first second : List ι} (alike : ∀ k, ofKind kind k first = ofKind kind k second)
    {i : ι} (hi : i ∈ first) : i ∈ second := by
  have inKind : i ∈ ofKind kind (kind i) first := mem_ofKind.2 ⟨hi, rfl⟩
  rw [alike] at inKind
  exact (mem_ofKind.1 inKind).1

/-- The head of an ordered list has the least rank in it. -/
theorem Ordered.rank_head_le {i : ι} {line : List ι} (ordered : Ordered kind (i :: line)) {j : ι}
    (hj : j ∈ i :: line) : (kind i).rank ≤ (kind j).rank := by
  rcases List.mem_cons.1 hj with rfl | hj
  · exact Nat.le_refl _
  · exact List.rel_of_pairwise_cons ordered hj

/-- **Order and agreement kind by kind determine a list.** -/
theorem eq_of_ordered {first second : List ι} (orderedFirst : Ordered kind first)
    (orderedSecond : Ordered kind second) (alike : ∀ k, ofKind kind k first = ofKind kind k second) :
    first = second := by
  induction first generalizing second with
  | nil =>
      refine (List.eq_nil_iff_forall_not_mem.2 fun j hj => ?_).symm
      exact List.not_mem_nil (mem_of_ofKind_eq (fun k => (alike k).symm) hj)
  | cons i first ih =>
      cases second with
      | nil => exact absurd (mem_of_ofKind_eq alike List.mem_cons_self) List.not_mem_nil
      | cons j second =>
          -- each head is a member of the other list, so neither has the larger rank
          have jLater := orderedFirst.rank_head_le
            (mem_of_ofKind_eq (fun k => (alike k).symm) (List.mem_cons_self (a := j)))
          have iLater := orderedSecond.rank_head_le
            (mem_of_ofKind_eq alike (List.mem_cons_self (a := i)))
          have kinds : kind i = kind j := StageKind.rank_injective (Nat.le_antisymm jLater iLater)
          have heads := alike (kind i)
          rw [ofKind_cons, ofKind_cons, if_pos rfl, if_pos kinds.symm] at heads
          obtain ⟨rfl, -⟩ := List.cons.inj heads
          congr 1
          refine ih (List.Pairwise.of_cons orderedFirst) (List.Pairwise.of_cons orderedSecond) fun k => ?_
          have whole := alike k
          rw [ofKind_cons, ofKind_cons] at whole
          split at whole
          · exact (List.cons.inj whole).2
          · exact whole

/-- The children in running order. -/
def inRunningOrder (kind : ι → StageKind) (given : List ι) : List ι :=
  given.mergeSort fun i j => (kind i).rank ≤ (kind j).rank

/-- The running order has the children that were given, each as often. -/
theorem inRunningOrder_perm (kind : ι → StageKind) (given : List ι) :
    (inRunningOrder kind given).Perm given :=
  List.mergeSort_perm _ _

/-- The comparison of ranks is transitive, as the merge sort asks. -/
private theorem rank_le_trans (i j l : ι) (hij : decide ((kind i).rank ≤ (kind j).rank) = true)
    (hjl : decide ((kind j).rank ≤ (kind l).rank) = true) :
    decide ((kind i).rank ≤ (kind l).rank) = true := by
  rw [decide_eq_true_eq] at hij hjl ⊢
  exact Nat.le_trans hij hjl

/-- The comparison of ranks is total, as the merge sort asks. -/
private theorem rank_le_total (i j : ι) :
    (decide ((kind i).rank ≤ (kind j).rank) || decide ((kind j).rank ≤ (kind i).rank)) = true := by
  rw [Bool.or_eq_true, decide_eq_true_eq, decide_eq_true_eq]
  exact Nat.le_total _ _

/-- Kinds never decrease in running order. -/
theorem ordered_inRunningOrder (kind : ι → StageKind) (given : List ι) :
    Ordered kind (inRunningOrder kind given) :=
  (List.pairwise_mergeSort rank_le_trans rank_le_total given).imp fun h => of_decide_eq_true h

/-- **Children of one kind run in the order given.**  They are in order already, so the sort keeps them
as a sublist, and it has no others of that kind. -/
theorem ofKind_inRunningOrder (kind : ι → StageKind) (k : StageKind) (given : List ι) :
    ofKind kind k (inRunningOrder kind given) = ofKind kind k given := by
  have level : (ofKind kind k given).Pairwise fun i j => decide ((kind i).rank ≤ (kind j).rank) = true := by
    refine List.pairwise_of_forall_mem_list fun i hi j hj => ?_
    rw [(mem_ofKind.1 hi).2, (mem_ofKind.1 hj).2]
    exact decide_eq_true (Nat.le_refl _)
  have within : (ofKind kind k given).Sublist (inRunningOrder kind given) :=
    List.sublist_mergeSort rank_le_trans rank_le_total level List.filter_sublist
  have kept : (ofKind kind k given).Sublist (ofKind kind k (inRunningOrder kind given)) := by
    have filtered := within.filter fun i => decide (kind i = k)
    simpa only [ofKind, List.filter_filter, Bool.and_self] using filtered
  have sizes := ((inRunningOrder_perm kind given).filter fun i => decide (kind i = k)).length_eq
  exact (kept.eq_of_length sizes.symm).symm

/-- Orders of construction that agree kind by kind have one running order. -/
theorem inRunningOrder_congr {given other : List ι}
    (alike : ∀ k, ofKind kind k other = ofKind kind k given) :
    inRunningOrder kind other = inRunningOrder kind given := by
  refine eq_of_ordered (ordered_inRunningOrder kind other) (ordered_inRunningOrder kind given) fun k => ?_
  rw [ofKind_inRunningOrder, ofKind_inRunningOrder, alike]

/-- A pipeline has its children in running order. -/
theorem stages_ofStages_map (child : ι → Stage ε) (given : List ι) :
    (ofStages (given.map child)).stages = (inRunningOrder (fun i => (child i).kind) given).map child :=
  (List.map_mergeSort (f := child) (s := precedes) fun _ _ _ _ => rfl).symm

end Pipeline
end LoopPlumbing
