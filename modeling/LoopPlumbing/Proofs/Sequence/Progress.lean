/- # Progress

Where a match can end.  A pattern never moves the cursor back, and it moves it forward unless it can match
nothing (`position_lt_of_mem_ends`); it moves it past no more than the end of the stream
(`position_le_of_mem_ends`).  None of this asks anything of the predicates, since the cursor is set anew
behind each token.

So the rounds of a repetition end, and the bound on their number never cuts any of them off: a repetition
is its own unfolding (`value_ends_star_eq`), and what is kept from a context to those that a round
advances to holds of all of them (`star_induction`).  In a pattern that passed the check every round
advances (`advances_eq_reverse`).
-/

import LoopPlumbing.Sequence.Matcher
import Mathlib.Data.List.Basic
import Mathlib.Order.MinMax

namespace LoopPlumbing
namespace Sequence

variable {τ ν : Type} {ignores : Predicate τ ν} {stream : List τ} {c d : Context τ ν}

/-- A token ends behind where it starts, within the stream. -/
theorem position_of_mem_tokenEnds {p : Predicate τ ν}
    (h : d ∈ (tokenEnds ignores stream p c).value) :
    c.position < d.position ∧ d.position ≤ stream.length := by
  obtain ⟨t, e, ht, -, rfl⟩ := mem_value_tokenEnds.1 h
  have hlt := (List.getElem?_eq_some_iff.1 ht).1
  rw [value_skipIgnored] at hlt ⊢
  constructor <;> simp only [Context.moveTo] <;> omega

/-! ### Rounds

A repetition makes a round only from where the last one has moved the cursor, so as many rounds as there are tokens
left are enough.
-/

section Rounds

variable {body : Context τ ν → Logged (Event τ) (List (Context τ ν))}

/-- Rounds never move the cursor back. -/
theorem position_le_of_mem_rounds {n : ℕ} (h : d ∈ (rounds body n c).value) :
    c.position ≤ d.position := by
  induction n generalizing c with
  | zero =>
      rw [value_rounds_zero, List.mem_singleton] at h
      exact h ▸ le_rfl
  | succ n ih =>
      rw [value_rounds_succ, List.mem_cons, List.mem_flatMap] at h
      rcases h with rfl | ⟨e, he, hd⟩
      · exact le_rfl
      · exact (mem_advances.1 he).2.le.trans (ih hd)

/-- If no round runs past a limit, nor does any number of them. -/
theorem position_le_max_of_mem_rounds {limit n : ℕ}
    (hbody : ∀ c, ∀ e ∈ (body c).value, e.position ≤ max c.position limit)
    (h : d ∈ (rounds body n c).value) : d.position ≤ max c.position limit := by
  induction n generalizing c with
  | zero =>
      rw [value_rounds_zero, List.mem_singleton] at h
      rw [h]
      exact le_max_left _ _
  | succ n ih =>
      rw [value_rounds_succ, List.mem_cons, List.mem_flatMap] at h
      rcases h with rfl | ⟨e, he, hd⟩
      · exact le_max_left _ _
      · have hce := hbody c e (mem_advances.1 he).1
        have hed := ih hd
        omega

/-- **The number of rounds allowed does not matter** once it covers the rest of the stream. -/
theorem value_rounds_eq_of_le {limit : ℕ}
    (hbody : ∀ c, ∀ e ∈ (body c).value, e.position ≤ max c.position limit) {n n' : ℕ}
    (h : limit ≤ c.position + n) (h' : limit ≤ c.position + n') :
    (rounds body n c).value = (rounds body n' c).value := by
  -- A context that a round advances to lies within the limit, so it has one round fewer to go.
  have closer : ∀ {c d : Context τ ν} {n : ℕ}, limit ≤ c.position + (n + 1) →
      d ∈ advances c (body c).value → limit ≤ d.position + n := by
    intro c d n h hd
    have := (mem_advances.1 hd).2
    omega
  have stuck : ∀ {c : Context τ ν}, limit ≤ c.position → advances c (body c).value = [] := by
    intro c h
    refine List.eq_nil_iff_forall_not_mem.2 fun d hd => ?_
    obtain ⟨hd, hlt⟩ := mem_advances.1 hd
    have := hbody c d hd
    omega
  induction n generalizing c n' with
  | zero =>
      cases n' with
      | zero => rfl
      | succ n' => rw [value_rounds_zero, value_rounds_succ, stuck h, List.flatMap_nil]
  | succ n ih =>
      cases n' with
      | zero => rw [value_rounds_zero, value_rounds_succ, stuck h', List.flatMap_nil]
      | succ n' =>
          rw [value_rounds_succ, value_rounds_succ]
          exact congrArg _ (List.flatMap_congr fun d hd => ih (closer h hd) (closer h' hd))

/-- What one round keeps, any number of rounds keeps. -/
theorem rounds_keeps {inv : Context τ ν → Prop} (keep : ∀ c, inv c → ∀ d ∈ (body c).value, inv d)
    {n : ℕ} (hc : inv c) (h : d ∈ (rounds body n c).value) : inv d := by
  induction n generalizing c with
  | zero =>
      rw [value_rounds_zero, List.mem_singleton] at h
      exact h ▸ hc
  | succ n ih =>
      rw [value_rounds_succ, List.mem_cons, List.mem_flatMap] at h
      rcases h with rfl | ⟨e, he, hd⟩
      · exact hc
      · exact ih (keep c hc e (mem_advances.1 he).1) hd

/-- Bodies that agree as long as something is kept, and keep it, have the same rounds. -/
theorem rounds_congr {body' : Context τ ν → Logged (Event τ) (List (Context τ ν))}
    {inv : Context τ ν → Prop} (keep : ∀ c, inv c → ∀ d ∈ (body c).value, inv d)
    (same : ∀ c, inv c → body' c = body c) {n : ℕ} (hc : inv c) :
    rounds body' n c = rounds body n c := by
  induction n generalizing c with
  | zero => rfl
  | succ n ih =>
      rw [rounds, rounds, same c hc]
      refine Logged.bind_congr_value (congrArg _ (Logged.gather_congr fun d hd => ?_))
      exact ih (keep c hc d (mem_advances.1 hd).1)

end Rounds

/-- **A match moves the cursor within the stream only.** -/
theorem position_le_of_mem_ends (q : Pattern τ ν) (h : d ∈ (q.ends ignores stream c).value) :
    c.position ≤ d.position ∧ d.position ≤ max c.position stream.length := by
  induction q generalizing c d with
  | token p =>
      have := position_of_mem_tokenEnds h
      omega
  | seq a b iha ihb =>
      rw [value_ends_seq, List.mem_flatMap] at h
      obtain ⟨e, he, hd⟩ := h
      have := iha he
      have := ihb hd
      omega
  | alt a b iha ihb =>
      rw [value_ends_alt, List.mem_append] at h
      exact h.elim iha ihb
  | star a ih =>
      rw [value_ends_star] at h
      exact ⟨position_le_of_mem_rounds h,
        position_le_max_of_mem_rounds (fun c e he => (ih he).2) h⟩

/-- **A pattern that can not match nothing moves the cursor forward.** -/
theorem position_lt_of_mem_ends {q : Pattern τ ν} (hq : q.nullable = false)
    (h : d ∈ (q.ends ignores stream c).value) : c.position < d.position := by
  induction q generalizing c d with
  | token p => exact (position_of_mem_tokenEnds h).1
  | seq a b iha ihb =>
      rw [value_ends_seq, List.mem_flatMap] at h
      obtain ⟨e, he, hd⟩ := h
      have hce := (position_le_of_mem_ends a he).1
      have hed := (position_le_of_mem_ends b hd).1
      rw [Pattern.nullable, Bool.and_eq_false_iff] at hq
      rcases hq with hq | hq
      · exact (iha hq he).trans_le hed
      · exact hce.trans_lt (ihb hq hd)
  | alt a b iha ihb =>
      rw [value_ends_alt, List.mem_append] at h
      rw [Pattern.nullable, Bool.or_eq_false_iff] at hq
      exact h.elim (iha hq.1) (ihb hq.2)
  | star a => exact absurd hq (by simp [Pattern.nullable])

/-- **A repetition is its unfolding:** no round at all, or one round that advances and then the repetition
again. -/
theorem value_ends_star_eq (a : Pattern τ ν) :
    (a.star.ends ignores stream c).value =
      c :: (advances c (a.ends ignores stream c).value).flatMap fun d =>
        (a.star.ends ignores stream d).value := by
  rw [value_ends_star, value_rounds_succ]
  refine congrArg _ (List.flatMap_congr fun d hd => ?_)
  have := (mem_advances.1 hd).2
  rw [value_ends_star]
  exact value_rounds_eq_of_le (fun c e he => (position_le_of_mem_ends a he).2) (by omega) (by omega)

/-- Induction on the rounds of a repetition: what a context has if all those have it that a round advances
to, every context has. -/
theorem star_induction (ignores : Predicate τ ν) (stream : List τ) (a : Pattern τ ν)
    {motive : Context τ ν → Prop}
    (step : ∀ c, (∀ d ∈ advances c (a.ends ignores stream c).value, motive d) → motive c)
    (c : Context τ ν) : motive c := by
  induction h : stream.length - c.position using Nat.strongRecOn generalizing c with
  | _ n ih =>
      refine step c fun d hd => ih _ ?_ d rfl
      obtain ⟨hd, hlt⟩ := mem_advances.1 hd
      have := (position_le_of_mem_ends a hd).2
      omega

/-- If the body can not match nothing, every end of a round advances. -/
theorem advances_eq_reverse {a : Pattern τ ν} (ha : a.nullable = false) :
    advances c (a.ends ignores stream c).value = (a.ends ignores stream c).value.reverse := by
  rw [advances, List.filter_eq_self.2]
  intro d hd
  exact decide_eq_true (position_lt_of_mem_ends ha hd)

end Sequence
end LoopPlumbing
