/- # Longer streams

What a scan finds in a stream it finds again when other tokens are put in front of the stream and behind it.  A
context moves with its cursor (`Context.shift`), and the tokens that remained behind it still come first
(`remaining_append`).  So each end of a predicate is found again, and with the predicates the pattern: its ends
become a part of the ends of the longer search, in their order and as often (`map_ends_sublist`).  A repetition
turns the order of a round around, and both searches do so alike.

A scan may have started where the stream ended, and the token that stands there now may be passed over.  What is
kept of a stream has no such tokens, so scans are compared there (`value_scan_sublist`), and the contexts are the
same (`value_contexts_sublist`).
-/

import LoopPlumbing.Proofs.Sequence.Ignored
import LoopPlumbing.Proofs.Sequence.Plain
import Mathlib.Data.List.Flatten

namespace LoopPlumbing
namespace Sequence

open scoped List

/-- A list that is gathered from members is found again if the members are, and what each of them gives. -/
theorem flatMap_sublist {α β γ : Type} {F : α → β} {l : List α} {l' : List β} {f : α → List γ} {g : β → List γ}
    (members : l.map F <+ l') (gives : ∀ a ∈ l, f a <+ g (F a)) : l.flatMap f <+ l'.flatMap g :=
  calc l.flatMap f
    _ <+ l.flatMap (fun a => g (F a)) := List.Sublist.flatMap_right l gives
    _ = (l.map F).flatMap g := (List.flatMap_map F g l).symm
    _ <+ l'.flatMap g := members.flatMap g

variable {τ ν : Type}

section Search

variable {ignores ignores' : Predicate τ ν} {stream stream' : List τ} {F : Context τ ν → Context τ ν}

/-- The rounds of a repetition are found again if each round is. -/
theorem map_ends_star_sublist {a : Pattern τ ν}
    (order : ∀ c d, (F c).position < (F d).position ↔ c.position < d.position)
    (body : ∀ c, (a.ends ignores stream c).value.map F <+ (a.ends ignores' stream' (F c)).value)
    (c : Context τ ν) :
    (a.star.ends ignores stream c).value.map F <+ (a.star.ends ignores' stream' (F c)).value := by
  have advance : ∀ c, (advances c (a.ends ignores stream c).value).map F <+
      advances (F c) (a.ends ignores' stream' (F c)).value := by
    intro c
    have same : (fun d => decide ((F c).position < d.position)) ∘ F =
        fun d => decide (c.position < d.position) := funext fun d => decide_eq_decide.2 (order c d)
    rw [advances, advances, List.map_reverse, ← same, ← List.filter_map]
    exact ((body c).filter _).reverse
  induction c using star_induction ignores stream a with
  | step c ih =>
      rw [value_ends_star_eq, value_ends_star_eq, List.map_cons, List.map_flatMap]
      exact (flatMap_sublist (advance c) ih).cons_cons _

/-- **What is found again of the predicates is found again of the pattern**, in the same order and as often. -/
theorem map_ends_sublist {q : Pattern τ ν}
    (order : ∀ c d, (F c).position < (F d).position ↔ c.position < d.position)
    (token : ∀ p ∈ q.predicates, ∀ c,
      (tokenEnds ignores stream p c).value.map F <+ (tokenEnds ignores' stream' p (F c)).value)
    (c : Context τ ν) :
    (q.ends ignores stream c).value.map F <+ (q.ends ignores' stream' (F c)).value := by
  induction q generalizing c with
  | token p => exact token p List.mem_cons_self c
  | seq a b iha ihb =>
      have first := iha (fun p hp => token p (List.mem_append_left _ hp)) c
      have second := ihb fun p hp => token p (List.mem_append_right _ hp)
      rw [value_ends_seq, value_ends_seq, List.map_flatMap]
      exact flatMap_sublist first fun d _ => second d
  | alt a b iha ihb =>
      rw [value_ends_alt, value_ends_alt, List.map_append]
      exact (iha (fun p hp => token p (List.mem_append_left _ hp)) c).append
        (ihb (fun p hp => token p (List.mem_append_right _ hp)) c)
  | star a ih => exact map_ends_star_sublist order (ih token) c

end Search

/-- The context with the cursor moved on. -/
def Context.shift (n : ℕ) (c : Context τ ν) : Context τ ν := c.moveTo (n + c.position)

section Longer

variable {ignores : Predicate τ ν}

/-- **In a longer stream the tokens that remained come first**, as far on as the stream stands. -/
theorem remaining_append (ignores : Predicate τ ν) (p s t : List τ) (position : ℕ) :
    ∃ rest, remaining ignores (p ++ s ++ t) (p.length + position) =
      (remaining ignores s position).map (fun x => (x.1, p.length + x.2)) ++ rest := by
  have moved : (s.drop position).zipIdx (p.length + position) =
      ((s.drop position).zipIdx position).map fun x => (x.1, p.length + x.2) := by
    rw [← List.map_snd_add_zipIdx_eq_zipIdx]
    exact List.map_congr_left fun x _ => congrArg (x.1, ·) (Nat.add_comm _ _)
  have behind : (p ++ s ++ t).drop (p.length + position) = s.drop position ++ t.drop (position - s.length) := by
    rw [List.append_assoc, List.drop_length_add_append, List.drop_append]
  rw [remaining, behind, List.zipIdx_append, List.filter_append, moved, List.filter_map]
  exact ⟨_, rfl⟩

/-- A predicate that does not look at the cursor ends, further on, where it ended. -/
theorem value_tokenEnds_shift_sublist {predicate : Predicate τ ν} (blind : predicate.Blind) (p s t : List τ)
    (c : Context τ ν) :
    (tokenEnds ignores s predicate c).value.map (·.shift p.length) <+
      (tokenEnds ignores (p ++ s ++ t) predicate (c.shift p.length)).value := by
  obtain ⟨rest, first⟩ := remaining_append ignores p s t c.position
  have further : (c.shift p.length).position = p.length + c.position := rfl
  have same : (c.shift p.length).moveTo 0 = c.moveTo 0 := rfl
  rw [value_tokenEnds, value_tokenEnds, blind.walk_singleton _ 0, blind.walk_singleton _ 0, further, first, same]
  cases remaining ignores s c.position with
  | nil => exact List.nil_sublist _
  | cons x tokens =>
      rw [List.map_cons, List.cons_append, List.head?_cons, List.head?_cons, Option.bind_some, Option.bind_some]
      cases (predicate.test (c.moveTo 0) x.1).value with
      | none => exact List.nil_sublist _
      | some d => exact List.Sublist.refl _

/-- **A pattern that does not look at the cursor finds its ends again in a longer stream.** -/
theorem map_shift_ends_sublist {q : Pattern τ ν} (blind : q.Blind) (p s t : List τ) (c : Context τ ν) :
    (q.ends ignores s c).value.map (·.shift p.length) <+
      (q.ends ignores (p ++ s ++ t) (c.shift p.length)).value :=
  map_ends_sublist (fun _ _ => Nat.add_lt_add_iff_left)
    (fun _ hp => value_tokenEnds_shift_sublist (blind.of_mem_predicates _ hp) p s t) c

/-- The positions in a stream are positions in the longer one, as far on as the stream stands. -/
theorem map_range_sublist (p s t : List τ) :
    (List.range (s.length + 1)).map (p.length + ·) <+ List.range ((p ++ s ++ t).length + 1) := by
  have length : (p ++ s ++ t).length + 1 = p.length + (s.length + 1 + t.length) := by
    simp only [List.length_append]
    omega
  have short : List.range (s.length + 1) <+ List.range (s.length + 1 + t.length) := by
    rw [List.range_add (m := t.length)]
    exact List.sublist_append_left _ _
  rw [length, List.range_add (n := p.length)]
  exact (short.map _).trans (List.sublist_append_right _ _)

/-- **A scan finds its matches again in a longer stream**, if nothing is passed over. -/
theorem value_scan_sublist {q : Pattern τ ν} (blind : q.Blind) {p s t : List τ} (plain : Plain ignores (p ++ s ++ t))
    (c : Context τ ν) :
    (q.scan ignores s c).value.map (·.moveTo 0) <+ (q.scan ignores (p ++ s ++ t) c).value.map (·.moveTo 0) := by
  have part : Plain ignores s := fun x hx =>
    plain x (List.mem_append_left _ (List.mem_append_right _ hx))
  rw [value_scan, value_scan, plain.starts_eq, part.starts_eq, List.map_flatMap, List.map_flatMap]
  refine flatMap_sublist (map_range_sublist p s t) fun i _ => ?_
  have found : (q.ends ignores s (c.moveTo i)).value.map (·.shift p.length) <+
      (q.ends ignores (p ++ s ++ t) (c.moveTo (p.length + i))).value := map_shift_ends_sublist blind p s t _
  have freed := found.map (·.moveTo 0)
  rw [List.map_map] at freed ⊢
  rw [List.map_map]
  exact freed

end Longer

/-- A scan leaves the cursor at the end of the stream. -/
theorem map_moveTo_contexts {m : Matcher τ ν} (scans : m.options.scanAllOffsets = true) (stream : List τ)
    (c : Context τ ν) :
    (m.contexts stream c).value.map (·.moveTo stream.length) = (m.contexts stream c).value := by
  unfold Matcher.contexts
  rw [if_pos scans, value_scan, List.map_flatMap]
  refine List.flatMap_congr fun i _ => ?_
  rw [List.map_map]
  rfl

/-- **A matcher that does not look at the cursor finds its matches again in a longer stream**, if it scans. -/
theorem value_contexts_sublist {m : Matcher τ ν} (scans : m.options.scanAllOffsets = true)
    (blind : m.pattern.Blind) (p s t : List τ) (c : Context τ ν) :
    (m.contexts s c).value.map (·.moveTo (p ++ s ++ t).length) <+ (m.contexts (p ++ s ++ t) c).value := by
  have parts : kept m.options.ignores (p ++ s ++ t) =
      kept m.options.ignores p ++ kept m.options.ignores s ++ kept m.options.ignores t := by
    rw [kept, List.filter_append, List.filter_append]
    rfl
  have plain : Plain m.options.ignores (kept m.options.ignores (p ++ s ++ t)) := fun _ => isIgnored_of_mem_kept
  have found : (m.contexts s c).value.map (·.moveTo 0) <+ (m.contexts (p ++ s ++ t) c).value.map (·.moveTo 0) := by
    rw [← map_moveTo_contexts_kept blind s, ← map_moveTo_contexts_kept blind (p ++ s ++ t), parts]
    rw [parts] at plain
    unfold Matcher.contexts
    rw [if_pos scans, if_pos scans]
    exact value_scan_sublist blind plain _
  have ended := found.map (·.moveTo (p ++ s ++ t).length)
  rw [List.map_map, List.map_map] at ended
  rw [← map_moveTo_contexts scans (p ++ s ++ t)]
  exact ended

end Sequence
end LoopPlumbing
