/- # Tokens that are passed over

Predicates that do not look at the cursor can not tell a stream from what is kept of it when the tokens that
are passed over have been deleted; no formula looks at it (`Formula.blind`).  Deleting moves a token that
stood at `i` to `rank i`, the number of tokens kept before it; a context moves with its cursor
(`Context.sink`).

On both streams the same tokens remain behind a context (`remaining_kept`), so a pattern ends alike on both
(`value_ends_kept`), and a scan finds the same on both (`value_scan_kept`).
-/

import LoopPlumbing.Proofs.Sequence.Formula
import LoopPlumbing.Proofs.Sequence.Search
import LoopPlumbing.Proofs.Sequence.Simulation
import LoopPlumbing.Proofs.Sequence.Walk

namespace LoopPlumbing
namespace Sequence

variable {τ ν : Type}

/-- The tokens that are not passed over. -/
def kept (ignores : Predicate τ ν) (stream : List τ) : List τ :=
  stream.filter fun t => !(isIgnored ignores t).value

/-- How many tokens before a position are kept. -/
def rank (ignores : Predicate τ ν) (stream : List τ) (position : ℕ) : ℕ :=
  (kept ignores (stream.take position)).length

/-- The same context on what is kept of the stream. -/
def Context.sink (ignores : Predicate τ ν) (stream : List τ) (c : Context τ ν) : Context τ ν :=
  c.moveTo (rank ignores stream c.position)

/-- The cursor has no say in what the predicate does. -/
def Predicate.Blind (p : Predicate τ ν) : Prop :=
  ∀ (c : Context τ ν) (t : τ) (i : ℕ),
    (p.test (c.moveTo i) t).value.map (·.moveTo 0) = (p.test c t).value.map (·.moveTo 0)

/-! ### Predicates that do not look at the cursor

One lemma for each element of the vocabulary.  Tests of the token alone do not look at the context; captures and
comparisons look at the bindings; recording takes down the token itself and not its place.
-/

namespace Predicate.Blind

theorem satisfying (p : τ → Bool) : (Predicate.satisfying p : Predicate τ ν).Blind := by
  intro c t i
  simp only [value_test_satisfying]
  split <;> rfl

theorem always : (Predicate.always : Predicate τ ν).Blind := fun _ _ _ => rfl

theorem never : (Predicate.never : Predicate τ ν).Blind := fun _ _ _ => rfl

theorem recording : (Predicate.recording : Predicate τ ν).Blind := fun _ _ _ => rfl

theorem checkpoint (label : String) : (Predicate.checkpoint label : Predicate τ ν).Blind := fun _ _ _ => rfl

theorem capture (s : Slot) (extract : τ → Option ν) : (Predicate.capture s extract).Blind := by
  intro c t i
  simp only [value_test_capture]
  cases extract t with
  | none => rfl
  | some v =>
      have same : (c.moveTo i).isBound s = c.isBound s := rfl
      rw [Option.bind_some, Option.bind_some, Context.store, Context.store, same]
      split <;> rfl

theorem equalsBound [BEq ν] (s : Slot) (extract : τ → Option ν) :
    (Predicate.equalsBound s extract).Blind := by
  intro c t i
  have same : (c.moveTo i).value? s = c.value? s := rfl
  rw [value_test_equalsBound, value_test_equalsBound, same]
  cases c.value? s with
  | none => rfl
  | some v =>
      rw [Option.bind_some, Option.bind_some]
      cases extract t with
      | none => rfl
      | some w =>
          rw [Option.bind_some, Option.bind_some]
          split <;> rfl

theorem and {p q : Predicate τ ν} (hp : p.Blind) (hq : q.Blind) : (p.and q).Blind := by
  intro c t i
  have first := hp c t i
  rw [value_test_and, value_test_and]
  cases h : (p.test c t).value with
  | none =>
      rw [h, Option.map_none, Option.map_eq_none_iff] at first
      rw [first]
  | some d =>
      rw [h, Option.map_some, Option.map_eq_some_iff] at first
      obtain ⟨e, he, same⟩ := first
      -- The contexts that the first operand leaves differ in the cursor only.
      have moved : e = d.moveTo e.position := congrArg (·.moveTo e.position) same
      rw [he, Option.bind_some, Option.bind_some, moved]
      exact hq d t e.position

theorem or {p q : Predicate τ ν} (hp : p.Blind) (hq : q.Blind) : (p.or q).Blind := by
  intro c t i
  rw [value_test_or, value_test_or, Option.map_or, Option.map_or, hp c t i, hq c t i]

theorem negate {p : Predicate τ ν} (hp : p.Blind) : p.negate.Blind := by
  intro c t i
  have alike := congrArg Option.isSome (hp c t i)
  rw [Option.isSome_map, Option.isSome_map] at alike
  rw [value_test_negate, value_test_negate, alike]
  split <;> rfl

end Predicate.Blind

/-- **The cursor has no say in any formula.** -/
theorem Formula.blind [BEq ν] (f : Formula τ ν) : (f.predicate .equalsBound).Blind := by
  induction f with
  | always => exact .always
  | never => exact .never
  | satisfying p => exact .satisfying p
  | recording => exact .recording
  | checkpoint label => exact .checkpoint label
  | capture s extract => exact .capture s extract
  | equalsBound s extract => exact .equalsBound s extract
  | and f g hf hg => exact hf.and hg
  | or f g hf hg => exact hf.or hg
  | negate f hf => exact hf.negate

/-- The cursor has no say in any predicate of the pattern. -/
def Pattern.Blind : Pattern τ ν → Prop
  | token p => p.Blind
  | seq a b => a.Blind ∧ b.Blind
  | alt a b => a.Blind ∧ b.Blind
  | star a => a.Blind

/-- The cursor has no say in any grammar. -/
theorem Grammar.blind [BEq ν] (g : Grammar τ ν) : (g.pattern .equalsBound).Blind := by
  induction g with
  | token f => exact f.blind
  | seq a b iha ihb => exact ⟨iha, ihb⟩
  | alt a b iha ihb => exact ⟨iha, ihb⟩
  | star a ih => exact ih

/-! ### What is kept of a stream

A position in the stream and its rank, the number of kept tokens before it, are two names for one place in what is
kept.
-/

section Kept

variable {ignores : Predicate τ ν} {stream : List τ} {position : ℕ}

/-- A token that is kept is not passed over. -/
theorem isIgnored_of_mem_kept {t : τ} (h : t ∈ kept ignores stream) :
    (isIgnored ignores t).value = false := by
  simpa using (List.mem_filter.1 h).2

/-- What is kept of a stream is what is kept before a position and then what is kept behind it. -/
theorem kept_take_append_drop (ignores : Predicate τ ν) (stream : List τ) (position : ℕ) :
    kept ignores (stream.take position) ++ kept ignores (stream.drop position) =
      kept ignores stream := by
  rw [kept, kept, ← List.filter_append, List.take_append_drop]
  rfl

/-- Where a token is passed over, the next position has the same rank. -/
theorem rank_succ_of_ignored (h : position < stream.length)
    (ignored : (isIgnored ignores stream[position]).value = true) :
    rank ignores stream (position + 1) = rank ignores stream position := by
  rw [rank, rank, List.take_succ_eq_append_getElem h, kept, kept, List.filter_append]
  simp [ignored]

/-- A token that is kept is found at its rank, and the next position has the next rank. -/
theorem rank_of_kept (h : position < stream.length)
    (hk : (isIgnored ignores stream[position]).value = false) :
    rank ignores stream (position + 1) = rank ignores stream position + 1 ∧
      (kept ignores stream)[rank ignores stream position]? = some stream[position] := by
  constructor
  · rw [rank, rank, List.take_succ_eq_append_getElem h, kept, kept, List.filter_append]
    simp [hk]
  · have first : kept ignores (stream.drop position) =
        stream[position] :: kept ignores (stream.drop (position + 1)) := by
      rw [kept, List.drop_eq_getElem_cons h, List.filter_cons_of_pos (by simp [hk])]
      rfl
    rw [← kept_take_append_drop ignores stream position, first, rank,
      List.getElem?_append_right le_rfl, Nat.sub_self, List.getElem?_cons_zero]

/-- At the end of the stream all kept tokens have gone by. -/
theorem length_kept : (kept ignores stream).length = rank ignores stream stream.length := by
  rw [rank, List.take_length]

/-- **The same tokens remain on both streams.** -/
theorem remaining_kept (ignores : Predicate τ ν) (stream : List τ) (position : ℕ) :
    remaining ignores (kept ignores stream) (rank ignores stream position) =
      (remaining ignores stream position).map fun x => (x.1, rank ignores stream x.2) := by
  induction h : stream.length - position generalizing position with
  | zero =>
      have hp : stream.length ≤ position := by omega
      rw [remaining_of_length_le hp, remaining_of_length_le]
      · rfl
      · rw [length_kept, rank, rank, List.take_of_length_le hp, List.take_length]
  | succ n ih =>
      have hp : position < stream.length := by omega
      have next := ih (position + 1) (by omega)
      cases hi : (isIgnored ignores stream[position]).value with
      | true =>
          rw [rank_succ_of_ignored hp hi] at next
          rw [(remaining_of_ignored hp hi).1]
          exact next
      | false =>
          obtain ⟨hr, ht⟩ := rank_of_kept hp hi
          obtain ⟨hlt, ht⟩ := List.getElem?_eq_some_iff.1 ht
          have kept : (isIgnored ignores (kept ignores stream)[rank ignores stream position]).value =
              false := by
            rw [ht]
            exact hi
          rw [(remaining_of_kept hlt kept).1, (remaining_of_kept hp hi).1, List.map_cons, ht, ← hr,
            next]

/-- Behind a remaining token the rank is one more. -/
theorem rank_succ_of_mem_remaining {x : τ × ℕ} (h : x ∈ remaining ignores stream position) :
    rank ignores stream (x.2 + 1) = rank ignores stream x.2 + 1 := by
  obtain ⟨there, kept⟩ := getElem?_of_mem_remaining h
  obtain ⟨inside, same⟩ := List.getElem?_eq_some_iff.1 there
  exact (rank_of_kept inside (same ▸ kept)).1

end Kept

/-! ### Ends on what is kept -/

section Ends

variable {ignores : Predicate τ ν} {stream : List τ}

/-- Wherever the cursor is put before and afterwards, a blind predicate does the same. -/
theorem Predicate.Blind.map_moveTo {p : Predicate τ ν} (hp : p.Blind) (c : Context τ ν) (t : τ)
    (i i' j : ℕ) :
    (p.test (c.moveTo i) t).value.map (·.moveTo j) =
      (p.test (c.moveTo i') t).value.map (·.moveTo j) := by
  have same := (hp c t i).trans (hp c t i').symm
  have : ∀ o : Option (Context τ ν), o.map (·.moveTo j) = (o.map (·.moveTo 0)).map (·.moveTo j) := by
    intro o
    rw [Option.map_map]
    rfl
  rw [this, same, ← this]

/-- Wherever the cursor is put, a blind predicate takes the next token to the same context behind it. -/
theorem Predicate.Blind.walk_singleton {p : Predicate τ ν} (hp : p.Blind) (c : Context τ ν) (i : ℕ) :
    walk ignores stream [p] c = (remaining ignores stream c.position).head?.bind fun x =>
      (p.test (c.moveTo i) x.1).value.map (·.moveTo (x.2 + 1)) := by
  rw [walk_cons]
  refine congrArg _ (funext fun x => ?_)
  rw [hp.map_moveTo c x.1 i x.2 (x.2 + 1), Option.map_eq_bind]
  rfl

/-- A token ends on what is kept of the stream where it ends on the stream. -/
theorem value_ends_kept_token {p : Predicate τ ν} (hp : p.Blind) (c : Context τ ν) :
    ((Pattern.token p).ends ignores (kept ignores stream) (c.sink ignores stream)).value =
      ((Pattern.token p).ends ignores stream c).value.map (·.sink ignores stream) := by
  have behind : (c.sink ignores stream).position = rank ignores stream c.position := rfl
  rw [value_ends_token, value_ends_token, value_tokenEnds, value_tokenEnds, hp.walk_singleton _ 0,
    hp.walk_singleton _ 0, behind, remaining_kept]
  cases h : remaining ignores stream c.position with
  | nil => rfl
  | cons x tokens =>
      have succ : rank ignores stream (x.2 + 1) = rank ignores stream x.2 + 1 :=
        rank_succ_of_mem_remaining (h ▸ List.mem_cons_self)
      have moved : ∀ d : Context τ ν, (d.moveTo (x.2 + 1)).sink ignores stream =
          d.moveTo (rank ignores stream x.2 + 1) := fun d => congrArg d.moveTo succ
      have same : (c.sink ignores stream).moveTo 0 = c.moveTo 0 := rfl
      rw [List.map_cons, List.head?_cons, List.head?_cons, Option.bind_some, Option.bind_some, same]
      cases (p.test (c.moveTo 0) x.1).value with
      | none => rfl
      | some d => exact congrArg (fun e => [e]) (moved d).symm

/-- The cursor has no say in the predicates of a blind pattern. -/
theorem Pattern.Blind.of_mem_predicates {q : Pattern τ ν} (hb : q.Blind) :
    ∀ p ∈ q.predicates, p.Blind := by
  induction q with
  | token p => exact fun p' hp' => List.mem_singleton.1 hp' ▸ hb
  | seq a b iha ihb => exact fun p hp => (List.mem_append.1 hp).elim (iha hb.1 p) (ihb hb.2 p)
  | alt a b iha ihb => exact fun p hp => (List.mem_append.1 hp).elim (iha hb.1 p) (ihb hb.2 p)
  | star a ih => exact ih hb

/-- **A pattern ends alike on the stream and on what is kept of it.** -/
theorem value_ends_kept {q : Pattern τ ν} (hb : q.Blind) (hq : q.RoundsConsume) (c : Context τ ν) :
    (q.ends ignores (kept ignores stream) (c.sink ignores stream)).value =
      (q.ends ignores stream c).value.map (·.sink ignores stream) :=
  value_ends_eq_map hq (fun p hp d => value_ends_kept_token (hb.of_mem_predicates p hp) d) c

/-- A scan starts at the same tokens on both streams. -/
theorem starts_kept (ignores : Predicate τ ν) (stream : List τ) :
    starts ignores (kept ignores stream) = (starts ignores stream).map (rank ignores stream) := by
  induction stream with
  | nil => rfl
  | cons t stream ih =>
      rw [starts_cons, List.map_append, List.map_map]
      cases ht : (isIgnored ignores t).value with
      | true =>
          have shift : rank ignores (t :: stream) ∘ (· + 1) = rank ignores stream := by
            funext i
            simp [rank, kept, ht]
          have gone : kept ignores (t :: stream) = kept ignores stream := by simp [kept, ht]
          rw [shift, gone, ih]
          rfl
      | false =>
          have shift : rank ignores (t :: stream) ∘ (· + 1) = (· + 1) ∘ rank ignores stream := by
            funext i
            simp [rank, kept, ht]
          have stays : kept ignores (t :: stream) = t :: kept ignores stream := by simp [kept, ht]
          rw [shift, stays, starts_cons, ht, ih, List.map_map]
          rfl

/-- **A scan finds the same on the stream and on what is kept of it.** -/
theorem value_scan_kept {q : Pattern τ ν} (hb : q.Blind) (hq : q.RoundsConsume) (c : Context τ ν) :
    (q.scan ignores (kept ignores stream) c).value =
      (q.scan ignores stream c).value.map (·.moveTo (kept ignores stream).length) := by
  rw [value_scan, value_scan, starts_kept, List.flatMap_map, List.map_flatMap]
  refine List.flatMap_congr fun i _ => ?_
  have moved : c.moveTo (rank ignores stream i) = (c.moveTo i).sink ignores stream := rfl
  rw [moved, value_ends_kept hb hq, List.map_map, List.map_map]
  rfl

end Ends

end Sequence
end LoopPlumbing
