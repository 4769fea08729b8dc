/- # The two ways to search a stream

A scan tries every position at which a match may start, and a span the first one only; `value_scan` and
`value_span` say what each lists in terms of the ends of the pattern.  Both look at a pattern through its
ends alone, so patterns that end alike are found alike (`contexts_congr`).

The list of a scan is ordered by its starts, and for each start it is the list of ends with the cursor
put behind the stream, so that contexts which differ in nothing else become equal.  They are still
listed as often.
-/

import LoopPlumbing.Sequence.Matcher
import Mathlib.Data.List.Nodup

namespace LoopPlumbing
namespace Sequence

variable {τ ν : Type}

section Values

variable (q : Pattern τ ν) (ignores : Predicate τ ν) (stream : List τ) (c : Context τ ν)

/-- Whether a match may start at a position: a token that is not passed over stands there, or the stream
ends there. -/
def mayStart (position : ℕ) : Bool :=
  stream[position]?.all fun t => !(isIgnored ignores t).value

/-- A match may start where no token stands that is passed over. -/
theorem mayStart_iff {position : ℕ} :
    mayStart ignores stream position = true ↔
      ∀ t, stream[position]? = some t → (isIgnored ignores t).value = false := by
  unfold mayStart
  cases stream[position]? <;> simp

/-! ### Where a match may start -/

/-- The positions at which a match may start. -/
def starts : List ℕ := (List.range (stream.length + 1)).filter (mayStart ignores stream)

/-- The starts are the positions up to the end at which a match may start. -/
theorem mem_starts {position : ℕ} :
    position ∈ starts ignores stream ↔
      position ≤ stream.length ∧ mayStart ignores stream position = true := by
  rw [starts, List.mem_filter, List.mem_range, Nat.lt_succ_iff]

/-- No start is tried twice. -/
theorem nodup_starts : (starts ignores stream).Nodup :=
  List.nodup_range.filter _

/-- A token put in front moves the starts by one. -/
theorem starts_cons (t : τ) :
    starts ignores (t :: stream) =
      (if (isIgnored ignores t).value then [] else [0]) ++ (starts ignores stream).map (· + 1) := by
  have behind : mayStart ignores (t :: stream) ∘ Nat.succ = mayStart ignores stream := by
    funext i
    simp [mayStart]
  rw [starts, List.length_cons, List.range_succ_eq_map, List.filter_cons, List.filter_map, behind]
  cases h : (isIgnored ignores t).value <;> simp [mayStart, starts, h]

/-! ### Scanning and spanning, as lists -/

/-- Matches that start anywhere are listed start by start. -/
theorem value_scan :
    (q.scan ignores stream c).value = (starts ignores stream).flatMap fun i =>
      (q.ends ignores stream (c.moveTo i)).value.map (·.moveTo stream.length) := by
  rw [Pattern.scan, Logged.value_gather, starts]
  induction List.range (stream.length + 1) with
  | nil => rfl
  | cons i positions ih =>
      rw [List.flatMap_cons, ih]
      cases h : stream[i]? with
      | none =>
          rw [List.filter_cons_of_pos (by simp [mayStart, h]), List.flatMap_cons]
          rfl
      | some t =>
          cases ht : (isIgnored ignores t).value with
          | true => simp [mayStart, h, ht]
          | false => simp [mayStart, h, ht]

/-- A match that spans the stream starts at the first token that is not passed over and leaves none behind it. -/
theorem value_span :
    (q.span ignores stream c).value =
      (q.ends ignores stream (c.moveTo (skipIgnored ignores stream 0).value)).value.filter fun d =>
        (skipIgnored ignores stream d.position).value == stream.length := by
  rw [Pattern.span, Logged.value_bind, Logged.value_bind, Logged.value_select]
  rfl

end Values

/-! ### From ends to contexts -/

/-- What is found is an end of the pattern, with the cursor moved. -/
theorem exists_mem_ends_of_mem_contexts {m : Matcher τ ν} {stream : List τ} {c d : Context τ ν}
    (h : d ∈ (m.contexts stream c).value) :
    ∃ start stop, ∃ e ∈ (m.pattern.ends m.options.ignores stream
        ((if m.options.debug then c.withDebug true else c).moveTo start)).value,
      d = e.moveTo stop := by
  unfold Matcher.contexts at h
  generalize (if m.options.debug then c.withDebug true else c) = c at h ⊢
  split at h
  · rw [value_scan, List.mem_flatMap] at h
    obtain ⟨start, -, h⟩ := h
    obtain ⟨e, he, rfl⟩ := List.mem_map.1 h
    exact ⟨start, stream.length, e, he, rfl⟩
  · rw [value_span] at h
    exact ⟨_, d.position, d, (List.mem_filter.1 h).1, rfl⟩

/-- Patterns that end alike are found alike. -/
theorem contexts_congr {m m' : Matcher τ ν} {stream : List τ} (options : m'.options = m.options)
    (ends : m'.pattern.ends m.options.ignores stream = m.pattern.ends m.options.ignores stream) :
    m'.contexts stream = m.contexts stream := by
  funext c
  unfold Matcher.contexts Pattern.scan Pattern.span
  rw [options, ends]

end Sequence
end LoopPlumbing
