/- # Streams in which nothing is passed over

Where no token is passed over, the next token is the one at the cursor.  A scan then starts everywhere
(`Plain.starts_eq`), a word is read off token by token (`Plain.walk_cons`), and a repetition of any token
leads to every later position once (`Plain.value_ends_star_always`).
-/

import LoopPlumbing.Proofs.Sequence.Search
import LoopPlumbing.Proofs.Sequence.Walk

namespace LoopPlumbing
namespace Sequence

variable {τ ν : Type} {ignores : Predicate τ ν} {stream : List τ}

/-- No token of the stream is passed over. -/
def Plain (ignores : Predicate τ ν) (stream : List τ) : Prop :=
  ∀ t ∈ stream, (isIgnored ignores t).value = false

namespace Plain

variable (plain : Plain ignores stream)
include plain

/-- If nothing is passed over, a match may start at every position and at the end. -/
theorem starts_eq : starts ignores stream = List.range (stream.length + 1) := by
  refine List.filter_eq_self.2 fun i _ => ?_
  rw [mayStart_iff]
  intro t ht
  exact plain t (List.mem_of_getElem? ht)

/-- The next token is the one at the cursor. -/
theorem head?_remaining (position : ℕ) :
    (remaining ignores stream position).head? = stream[position]?.map fun t => (t, position) := by
  by_cases h : position < stream.length
  · have kept := plain _ (List.getElem_mem h)
    rw [(remaining_of_kept h kept).1, List.getElem?_eq_getElem h]
    rfl
  · rw [remaining_of_length_le (by omega), List.getElem?_eq_none (by omega)]
    rfl

/-- **A word is read off token by token.** -/
theorem walk_cons (p : Predicate τ ν) (word : List (Predicate τ ν)) (c : Context τ ν) :
    walk ignores stream (p :: word) c =
      stream[c.position]?.bind fun t =>
        (p.test c t).value.bind fun d => walk ignores stream word (d.moveTo (c.position + 1)) := by
  rw [Sequence.walk_cons, plain.head?_remaining, Option.bind_map]
  rfl

/-- **Any tokens may come in between:** the cursor moves on to any position up to the end. -/
theorem value_ends_star_always (c : Context τ ν) :
    ((Pattern.token .always).star.ends ignores stream c).value =
      (List.range' c.position (stream.length - c.position + 1)).map c.moveTo := by
  have positions : (remaining ignores stream c.position).map Prod.snd =
      List.range' c.position (stream.length - c.position) := by
    rw [remaining, List.filter_eq_self.2, List.zipIdx_map_snd, List.length_drop]
    intro x hx
    rw [plain x.1 (List.mem_of_mem_drop (List.fst_mem_of_mem_zipIdx hx))]
    rfl
  have shift : (List.range' c.position (stream.length - c.position)).map (fun i => c.moveTo (i + 1)) =
      (List.range' (c.position + 1) (stream.length - c.position)).map c.moveTo := by
    rw [Nat.add_comm, ← List.map_add_range', List.map_map]
    exact List.map_congr_left fun i _ => congrArg c.moveTo (Nat.add_comm i 1)
  refine (value_ends_any_star ignores stream c).trans ?_
  rw [List.range'_succ, List.map_cons, ← shift, ← positions, List.map_map]
  rfl

end Plain
end Sequence
end LoopPlumbing
