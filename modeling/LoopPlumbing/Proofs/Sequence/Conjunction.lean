/- # Predicates in a row

Predicates that all have to hold can be joined by `and` with the brackets set in many ways.  A `Conjunction` is one
of these ways.  Joining is associative on the nose (`Predicate.and_assoc`): the tests are run from left to right in
any case, and a slot that is bound by the first, needed by the second and needed again by the third is left out of
what is required no matter which two are joined first.  So a conjunction is told by its members
(`Conjunction.predicate_eq_foldl`).

What it requires is then read off the members: the slots that some member requires and none before it binds, each
where it is first needed (`FirstNeeds`).  With one member more at the end, only what this one needs first comes in
addition (`FirstNeeds.concat`).
-/

import LoopPlumbing.Sequence.Predicate
import Mathlib.Data.List.Induction
import Mathlib.Data.List.Nodup
import Mathlib.Data.Prod.Lex

namespace LoopPlumbing
namespace Sequence

variable {τ ν : Type}

namespace Predicate

/-- **Joining is associative**, in the tests and in the declarations. -/
theorem and_assoc (p q r : Predicate τ ν) : (p.and q).and r = p.and (q.and r) := by
  have tests : ((p.and q).and r).test = (p.and (q.and r)).test := by
    funext c t
    simp only [and, bind_assoc]
    refine bind_congr fun outcome => ?_
    cases outcome with
    | none => rfl
    | some d => rfl
  have requires : ((p.and q).and r).requires = (p.and (q.and r)).requires := by
    have needed : r.requires.filter (· ∉ (p.and q).binds) =
        (r.requires.filter (· ∉ q.binds)).filter (· ∉ p.binds) := by
      rw [List.filter_filter]
      exact List.filter_congr fun s _ => by simp [mem_binds_and]
    calc ((p.and q).and r).requires
        = adjoinAll (p.and q).requires (r.requires.filter (· ∉ (p.and q).binds)) := rfl
      _ = adjoinAll (adjoinAll p.requires (q.requires.filter (· ∉ p.binds)))
            ((r.requires.filter (· ∉ q.binds)).filter (· ∉ p.binds)) := by rw [needed]; rfl
      _ = adjoinAll p.requires ((q.and r).requires.filter (· ∉ p.binds)) := by
          rw [← adjoinAll_adjoinAll, ← filter_adjoinAll]; rfl
  have binds : ((p.and q).and r).binds = (p.and (q.and r)).binds :=
    (adjoinAll_adjoinAll p.binds q.binds r.binds).symm
  exact (Predicate.mk.injEq ..).mpr ⟨tests, requires, binds⟩

/-- Joining predicates is associative as an operation on predicates, so the library's lemmas on folds apply. -/
instance : Std.Associative (and (τ := τ) (ν := ν)) := ⟨and_assoc⟩

end Predicate

/-! ### Bracketings

A bracketing is a tree; its members are the leaves from left to right.
-/

/-- Some predicates in a row, joined with the brackets set in one way. -/
inductive Conjunction (τ ν : Type) where
  | one (p : Predicate τ ν)
  | both (left right : Conjunction τ ν)

namespace Conjunction

/-- The predicates, from left to right. -/
def members : Conjunction τ ν → List (Predicate τ ν)
  | one p => [p]
  | both f g => f.members ++ g.members

/-- The predicates joined as the brackets say. -/
def predicate : Conjunction τ ν → Predicate τ ν
  | one p => p
  | both f g => f.predicate.and g.predicate

/-- **The brackets do not matter:** the members may as well be joined one by one from the left. -/
theorem predicate_eq_foldl (f : Conjunction τ ν) :
    ∃ p rest, f.members = p :: rest ∧ f.predicate = rest.foldl .and p := by
  induction f with
  | one p => exact ⟨p, [], rfl, rfl⟩
  | both f g ihf ihg =>
      obtain ⟨p, rest, membersf, hf⟩ := ihf
      obtain ⟨q, more, membersg, hg⟩ := ihg
      refine ⟨p, rest ++ q :: more, by rw [members, membersf, membersg, List.cons_append], ?_⟩
      calc f.predicate.and g.predicate
          = (rest.foldl .and p).and (more.foldl .and q) := by rw [hf, hg]
        _ = more.foldl .and ((rest.foldl .and p).and q) := (List.foldl_assoc).symm
        _ = (rest ++ q :: more).foldl .and p := by rw [List.foldl_append, List.foldl_cons]

/-- A token passes if it passes all members one after the other, each in the context that the one before leaves. -/
theorem value_test_predicate (f : Conjunction τ ν) (c : Context τ ν) (t : τ) :
    (f.predicate.test c t).value = f.members.foldlM (fun d p => (p.test d t).value) c := by
  induction f generalizing c with
  | one p => simp [predicate, members]
  | both f g ihf ihg =>
      rw [predicate, Predicate.value_test_and, members, List.foldlM_append, ihf]
      exact congrArg _ (funext ihg)

end Conjunction

/-- In a row of predicates, the one at position `x.1` requires the slot, in place `x.2` of its list, and none before it
binds the slot. -/
def NeededAt (row : List (Predicate τ ν)) (s : Slot) (x : ℕ × ℕ) : Prop :=
  ∃ p, row[x.1]? = some p ∧ p.requires[x.2]? = some s ∧ ∀ q ∈ row.take x.1, s ∉ q.binds

/-- The slots are those that the row needs, each once, in the order in which they are first needed. -/
structure FirstNeeds (row : List (Predicate τ ν)) (slots : List Slot) : Prop where
  nodup : slots.Nodup
  mem_iff : ∀ s, s ∈ slots ↔ ∃ x, NeededAt row s x
  ordered : slots.Pairwise fun s s' =>
    ∃ x, NeededAt row s x ∧ ∀ x', NeededAt row s' x' → toLex x < toLex x'

/-! ### First needs

Where a slot is needed is told by two numbers, the place of the predicate in the row and the place of the slot in what
that predicate requires, compared as in a dictionary.
-/

section FirstNeeds

variable {row : List (Predicate τ ν)} {p : Predicate τ ν} {s : Slot} {x : ℕ × ℕ}

/-- A place lies within the row. -/
theorem NeededAt.lt_length (h : NeededAt row s x) : x.1 < row.length := by
  obtain ⟨q, hq, -⟩ := h
  exact (List.getElem?_eq_some_iff.1 hq).1

/-- With one predicate more at the end, a slot is needed where it was, or by that predicate. -/
theorem neededAt_concat_iff :
    NeededAt (row ++ [p]) s x ↔
      NeededAt row s x ∨
        x.1 = row.length ∧ p.requires[x.2]? = some s ∧ ∀ q ∈ row, s ∉ q.binds := by
  unfold NeededAt
  rcases lt_trichotomy x.1 row.length with lt | eq | gt
  · rw [List.getElem?_append_left lt, List.take_append_of_le_length lt.le]
    simp [lt.ne]
  · simp [eq]
  · have outside : (row ++ [p])[x.1]? = none := List.getElem?_eq_none (by simp; omega)
    have before : row[x.1]? = none := List.getElem?_eq_none gt.le
    simp [outside, before, gt.ne']

/-- An empty row needs nothing. -/
theorem FirstNeeds.nil : FirstNeeds ([] : List (Predicate τ ν)) [] where
  nodup := List.nodup_nil
  mem_iff s := by simp [NeededAt]
  ordered := .nil

/-- In a list without repetition each element stands in one place, and the places go up. -/
theorem pairwise_place {α : Type} {l : List α} (distinct : l.Nodup) :
    l.Pairwise fun a b => ∃ i : ℕ, l[i]? = some a ∧ ∀ j : ℕ, l[j]? = some b → i < j := by
  refine List.pairwise_iff_getElem.2 fun i j hi hj lt => ⟨i, List.getElem?_eq_getElem hi, fun k hk => ?_⟩
  have same : j = k := (List.getElem?_inj hj distinct).1 ((List.getElem?_eq_getElem hj).trans hk.symm)
  exact same ▸ lt

/-- **One predicate more** adds what it requires unless that was needed or bound before. -/
theorem FirstNeeds.concat {slots : List Slot} (h : FirstNeeds row slots) (distinct : p.requires.Nodup) :
    FirstNeeds (row ++ [p])
      (slots ++ p.requires.filter fun s => s ∉ slots ∧ ∀ q ∈ row, s ∉ q.binds) := by
  have new_iff : ∀ {s}, s ∈ p.requires.filter (fun s => s ∉ slots ∧ ∀ q ∈ row, s ∉ q.binds) ↔
      s ∈ p.requires ∧ s ∉ slots ∧ ∀ q ∈ row, s ∉ q.binds := fun {s} => by
    rw [List.mem_filter, decide_eq_true_eq]
  -- A slot that is new is needed by the last predicate only.
  have last : ∀ {s x}, s ∉ slots → NeededAt (row ++ [p]) s x →
      x.1 = row.length ∧ p.requires[x.2]? = some s := fun {s x} hs hx => by
    rcases neededAt_concat_iff.1 hx with hx | ⟨at_end, place, -⟩
    · exact absurd ((h.mem_iff s).2 ⟨x, hx⟩) hs
    · exact ⟨at_end, place⟩
  refine ⟨?nodup, fun s => ?mem_iff, List.pairwise_append.2 ⟨?old, ?new, fun s hs s' hs' => ?across⟩⟩
  case nodup =>
      refine List.nodup_append.2 ⟨h.nodup, distinct.filter _, fun s hs s' hs' e => ?_⟩
      exact (new_iff.1 hs').2.1 (e ▸ hs)
  case mem_iff =>
      simp only [List.mem_append, new_iff, neededAt_concat_iff, exists_or]
      constructor
      · rintro (hs | ⟨required, -, free⟩)
        · exact .inl ((h.mem_iff s).1 hs)
        · obtain ⟨k, hk⟩ := List.mem_iff_getElem?.1 required
          exact .inr ⟨(row.length, k), rfl, hk, free⟩
      · rintro (hx | ⟨x, -, place, free⟩)
        · exact .inl ((h.mem_iff s).2 hx)
        · by_cases hs : s ∈ slots
          · exact .inl hs
          · exact .inr ⟨List.mem_of_getElem? place, hs, free⟩
  case old =>
      refine h.ordered.imp fun {s s'} ⟨x, hx, first⟩ => ⟨x, neededAt_concat_iff.2 (.inl hx), fun x' hx' => ?_⟩
      rcases neededAt_concat_iff.1 hx' with hx' | ⟨at_end, -⟩
      · exact first x' hx'
      · exact Prod.Lex.toLex_lt_toLex.2 (.inl (at_end ▸ hx.lt_length))
  case new =>
      refine ((pairwise_place distinct).filter _).imp_of_mem fun {s s'} hs hs' ⟨k, hk, first⟩ => ?_
      refine ⟨(row.length, k), neededAt_concat_iff.2 (.inr ⟨rfl, hk, (new_iff.1 hs).2.2⟩), fun x' hx' => ?_⟩
      obtain ⟨at_end, place⟩ := last (new_iff.1 hs').2.1 hx'
      exact Prod.Lex.toLex_lt_toLex.2 (.inr ⟨at_end.symm, first x'.2 place⟩)
  case across =>
      obtain ⟨x, hx⟩ := (h.mem_iff s).1 hs
      refine ⟨x, neededAt_concat_iff.2 (.inl hx), fun x' hx' => ?_⟩
      have at_end := (last (new_iff.1 hs').2.1 hx').1
      exact Prod.Lex.toLex_lt_toLex.2 (.inl (at_end ▸ hx.lt_length))

/-- A row of joined predicates binds what any of them binds. -/
theorem mem_binds_foldl (p : Predicate τ ν) (rest : List (Predicate τ ν)) :
    s ∈ (rest.foldl .and p).binds ↔ ∃ q ∈ p :: rest, s ∈ q.binds := by
  induction rest generalizing p with
  | nil => simp
  | cons q rest ih =>
      rw [List.foldl_cons, ih]
      simp only [List.mem_cons, exists_eq_or_imp, Predicate.mem_binds_and, or_assoc]

/-- **What a row of joined predicates requires** is what the row needs first. -/
theorem firstNeeds_foldl (p : Predicate τ ν) (rest : List (Predicate τ ν))
    (distinct : ∀ q ∈ p :: rest, q.requires.Nodup) :
    FirstNeeds (p :: rest) (rest.foldl .and p).requires := by
  induction rest using List.reverseRecOn with
  | nil => simpa using FirstNeeds.nil.concat (distinct p List.mem_cons_self)
  | append_singleton rest q ih =>
      have distinct' : (∀ r ∈ p :: rest, r.requires.Nodup) ∧ q.requires.Nodup := by
        rw [← List.cons_append, List.forall_mem_append] at distinct
        exact ⟨distinct.1, distinct.2 q List.mem_cons_self⟩
      have joined : ((rest.foldl .and p).and q).requires =
          (rest.foldl .and p).requires ++ q.requires.filter fun s =>
            s ∉ (rest.foldl .and p).requires ∧ ∀ r ∈ p :: rest, s ∉ r.binds := by
        rw [Predicate.and, adjoinAll_eq_append (distinct'.2.filter _), List.filter_filter]
        refine congrArg _ (List.filter_congr fun s _ => ?_)
        simp [mem_binds_foldl]
      rw [List.foldl_concat, joined]
      exact (ih distinct'.1).concat distinct'.2

end FirstNeeds

/-- **Regrouping is harmless.**  However the brackets are set, the same predicates in the same order join to one
predicate: the same test of every token in every context, reports included, and the same lists of slots required and
bound.  The test runs the members from left to right and stops at the first that rejects.  If no member requires a
slot twice, the slots required are exactly those that some member requires and none before it binds, in the order in
which they are first required so. -/
theorem brackets_do_not_matter {f g : Conjunction τ ν} (same : f.members = g.members) :
    f.predicate = g.predicate ∧
      (∀ (c : Context τ ν) (t : τ),
        (f.predicate.test c t).value = f.members.foldlM (fun d p => (p.test d t).value) c) ∧
      ((∀ p ∈ f.members, p.requires.Nodup) → FirstNeeds f.members f.predicate.requires) := by
  obtain ⟨p, rest, membersf, hf⟩ := f.predicate_eq_foldl
  obtain ⟨q, more, membersg, hg⟩ := g.predicate_eq_foldl
  obtain ⟨rfl, rfl⟩ : p = q ∧ rest = more := List.cons.inj (membersf.symm.trans (same.trans membersg))
  refine ⟨hf.trans hg.symm, f.value_test_predicate, fun distinct => ?_⟩
  rw [membersf] at distinct ⊢
  rw [hf]
  exact firstNeeds_foldl p rest distinct

/-- A letter that is captured, compared with itself and with another, and compared with itself, a third and the other:
the brackets from the left, then from the right. -/
def lettersFromLeft : Conjunction Char Char :=
  .both (.both (.one (.capture ⟨0, "letter"⟩ some))
    (.one ((Predicate.equalsBound ⟨0, "letter"⟩ some).and (.equalsBound ⟨1, "other"⟩ some))))
    (.one (((Predicate.equalsBound ⟨0, "letter"⟩ some).and (.equalsBound ⟨2, "third"⟩ some)).and
      (.equalsBound ⟨1, "other"⟩ some)))

/-- The same conjuncts as those of `lettersFromLeft`, bracketed to the right. -/
def lettersFromRight : Conjunction Char Char :=
  .both (.one (.capture ⟨0, "letter"⟩ some))
    (.both (.one ((Predicate.equalsBound ⟨0, "letter"⟩ some).and (.equalsBound ⟨1, "other"⟩ some)))
      (.one (((Predicate.equalsBound ⟨0, "letter"⟩ some).and (.equalsBound ⟨2, "third"⟩ some)).and
        (.equalsBound ⟨1, "other"⟩ some))))

/-- Both require the other and the third, in this order; the letter is bound by then. -/
theorem brackets_lettersFromLeft :
    lettersFromLeft.members = lettersFromRight.members ∧
      (∀ p ∈ lettersFromLeft.members, p.requires.Nodup) ∧
      lettersFromLeft.predicate = lettersFromRight.predicate ∧
      lettersFromRight.predicate.requires = [⟨1, "other"⟩, ⟨2, "third"⟩] ∧
      FirstNeeds lettersFromLeft.members lettersFromRight.predicate.requires := by
  have same : lettersFromLeft.members = lettersFromRight.members := rfl
  have distinct : ∀ p ∈ lettersFromLeft.members, p.requires.Nodup := by
    simp only [lettersFromLeft, Conjunction.members, List.cons_append, List.nil_append, List.forall_mem_cons]
    decide
  obtain ⟨joined, -, needs⟩ := brackets_do_not_matter same
  exact ⟨same, distinct, joined, by decide, joined ▸ needs distinct⟩

end Sequence
end LoopPlumbing
