/- # Patterns within larger patterns

A part of a pattern may be replaced.  What stands around it is a pattern with a gap, its `Surroundings`.

A part may be checked no more strictly than another: it passes wherever the other does, and then binds no fewer
slots.  Then so is the whole (`NoStricterThan.fill`).  Parts of one language whose rounds consume alike are checked
alike, since the check is exact (`NoStricterThan.of_language`).

If what two parts end in is related, from every context, so is what the wholes end in and what is found of them
(`Carried.fill`, `Carried.contexts`), for every relation between lists that is carried through all that matching does
with lists.  The same up to the order is such a relation: a repetition tries what its rounds end in from the last to
the first, but it tries all of it.
-/

import LoopPlumbing.Proofs.Sequence.ExactCheck
import LoopPlumbing.Proofs.Sequence.Progress
import LoopPlumbing.Proofs.Sequence.Search
import Mathlib.Data.List.Perm.Basic

namespace LoopPlumbing
namespace Sequence

open scoped List

variable {τ ν : Type}

/-- A pattern with a gap. -/
inductive Surroundings (τ ν : Type) where
  | gap
  | seqFirst (s : Surroundings τ ν) (second : Pattern τ ν)
  | seqSecond (first : Pattern τ ν) (s : Surroundings τ ν)
  | altLeft (s : Surroundings τ ν) (right : Pattern τ ν)
  | altRight (left : Pattern τ ν) (s : Surroundings τ ν)
  | starBody (s : Surroundings τ ν)

/-- The pattern with a part in the gap. -/
def Surroundings.fill : Surroundings τ ν → Pattern τ ν → Pattern τ ν
  | gap, q => q
  | seqFirst s b, q => (s.fill q).seq b
  | seqSecond a s, q => a.seq (s.fill q)
  | altLeft s b, q => (s.fill q).alt b
  | altRight a s, q => a.alt (s.fill q)
  | starBody s, q => (s.fill q).star

/-- Whatever the options, both patterns compile or none does; and if they do, then on every stream and from every
context what the one lists is in a relation to what the other lists. -/
def Interchangeable (R : List (Context τ ν) → List (Context τ ν) → Prop) (q q' : Pattern τ ν) : Prop :=
  ∀ options : Options τ ν,
    ((∃ m, q.compile options = .ok m) ↔ ∃ m', q'.compile options = .ok m') ∧
    ∀ m m', q.compile options = .ok m → q'.compile options = .ok m' →
      ∀ (stream : List τ) (c : Context τ ν), R (m.contexts stream c).value (m'.contexts stream c).value

/-! ### The verdict

Replacing a part by one that is no stricter leaves the whole no stricter, by induction on what is around it.
-/

section Verdict

namespace Pattern

/-- The pattern passes the check wherever another does, even if more is bound before, and then no fewer slots are bound
behind it; and it can match nothing exactly if the other can. -/
structure NoStricterThan (q' q : Pattern τ ν) : Prop where
  nullable : q'.nullable = q.nullable
  passes : ∀ {bound bound' after : List Slot}, bound ⊆ bound' → q.check bound = .ok after →
    ∃ after', q'.check bound' = .ok after' ∧ after ⊆ after'

variable {q q' a a' b b' : Pattern τ ν}

/-- Patterns with the same words can match nothing together or not at all. -/
theorem nullable_eq_of_language (same : q.language = q'.language) : q.nullable = q'.nullable := by
  rw [Bool.eq_iff_iff, ← nil_mem_language_iff, ← nil_mem_language_iff, same]

namespace NoStricterThan

/-- The verdict is a matter of the language and of what is repeated. -/
theorem of_language (same : q.language = q'.language) (consume : q.RoundsConsume → q'.RoundsConsume) :
    q'.NoStricterThan q where
  nullable := (nullable_eq_of_language same).symm
  passes {bound bound' after} more h := by
    obtain ⟨repeated, reads⟩ := exists_check_eq_ok_iff.1 ⟨after, h⟩
    have reads' : q'.ReadsBound bound := by rwa [ReadsBound, ← same]
    have repeated' := roundsConsume_iff.1 (consume (roundsConsume_iff.2 repeated))
    obtain ⟨after', h'⟩ := exists_check_eq_ok_iff.2 ⟨repeated', reads'.mono more⟩
    refine ⟨after', h', fun s hs => (mem_after_iff h').2 ?_⟩
    rw [← same]
    exact ((mem_after_iff h).1 hs).imp (@more s) id

/-- No pattern is stricter than itself. -/
theorem refl (q : Pattern τ ν) : q.NoStricterThan q := of_language rfl id

/-- A sequence of parts that are no stricter is no stricter. -/
theorem seq (first : a'.NoStricterThan a) (second : b'.NoStricterThan b) :
    (a'.seq b').NoStricterThan (a.seq b) where
  nullable := by rw [Pattern.nullable, Pattern.nullable, first.nullable, second.nullable]
  passes more h := by
    obtain ⟨middle, ha, hb⟩ := check_seq_eq_ok.1 h
    obtain ⟨middle', ha', between⟩ := first.passes more ha
    obtain ⟨after', hb', behind⟩ := second.passes between hb
    exact ⟨after', check_seq_eq_ok.2 ⟨middle', ha', hb'⟩, behind⟩

/-- Alternatives that are no stricter make an alternation that is no stricter. -/
theorem alt (left : a'.NoStricterThan a) (right : b'.NoStricterThan b) :
    (a'.alt b').NoStricterThan (a.alt b) where
  nullable := by rw [Pattern.nullable, Pattern.nullable, left.nullable, right.nullable]
  passes more h := by
    obtain ⟨one, other, ha, hb, rfl⟩ := check_alt_eq_ok.1 h
    obtain ⟨one', ha', moreLeft⟩ := left.passes more ha
    obtain ⟨other', hb', moreRight⟩ := right.passes more hb
    refine ⟨_, check_alt_eq_ok.2 ⟨one', other', ha', hb', rfl⟩, fun s hs => ?_⟩
    obtain ⟨inOne, inOther⟩ := List.mem_filter.1 hs
    exact List.mem_filter.2 ⟨moreLeft inOne, decide_eq_true (moreRight (of_decide_eq_true inOther))⟩

/-- The repetition of a body that is no stricter is no stricter. -/
theorem star (body : a'.NoStricterThan a) : a'.star.NoStricterThan a.star where
  nullable := rfl
  passes {bound bound' after} more h := by
    obtain ⟨empty, ⟨inner, ha⟩, rfl⟩ := check_star_eq_ok.1 h
    obtain ⟨inner', ha', -⟩ := body.passes more ha
    exact ⟨bound', check_star_eq_ok.2 ⟨body.nullable.trans empty, ⟨inner', ha'⟩, rfl⟩, more⟩

/-- **A whole is checked no more strictly than another if its part is.** -/
theorem fill (h : q'.NoStricterThan q) (s : Surroundings τ ν) : (s.fill q').NoStricterThan (s.fill q) := by
  induction s with
  | gap => exact h
  | seqFirst s b ih => exact ih.seq (refl b)
  | seqSecond a s ih => exact (refl a).seq ih
  | altLeft s b ih => exact ih.alt (refl b)
  | altRight a s ih => exact (refl a).alt ih
  | starBody s ih => exact ih.star

/-- A pattern that is no stricter compiles with the same options. -/
theorem exists_compile (h : q'.NoStricterThan q) {options : Options τ ν}
    (compiles : ∃ m, q.compile options = .ok m) : ∃ m', q'.compile options = .ok m' := by
  obtain ⟨bound, checked⟩ := exists_compile_eq_ok.1 compiles
  obtain ⟨bound', checked', -⟩ := h.passes (List.Subset.refl []) checked
  exact exists_compile_eq_ok.2 ⟨bound', checked'⟩

end NoStricterThan

end Pattern

/-- Patterns of one language whose rounds consume alike compile alike. -/
theorem exists_compile_iff_of_language {q q' : Pattern τ ν} (same : q.language = q'.language)
    (consume : q.RoundsConsume ↔ q'.RoundsConsume) (options : Options τ ν) :
    (∃ m, q.compile options = .ok m) ↔ ∃ m', q'.compile options = .ok m' :=
  ⟨(Pattern.NoStricterThan.of_language same consume.1).exists_compile,
    (Pattern.NoStricterThan.of_language same.symm consume.2).exists_compile⟩

end Verdict

/-! ### The lists

A relation between the lists of contexts in which two parts end is carried outwards to the whole, if what the engine
does with lists preserves it.  Equality, equality up to the order, and being a sublist are three such relations.
-/

section Lists

/-- A relation between lists of contexts that is carried through all that matching does with such lists. -/
structure Carried (R : List (Context τ ν) → List (Context τ ν) → Prop) : Prop where
  refl : ∀ l, R l l
  append : ∀ {l₁ l₁' l₂ l₂'}, R l₁ l₁' → R l₂ l₂' → R (l₁ ++ l₂) (l₁' ++ l₂')
  flatMap : ∀ {l l' f f'}, R l l' → (∀ d ∈ l, R (f d) (f' d)) → R (l.flatMap f) (l'.flatMap f')
  filter : ∀ {l l'} (p : Context τ ν → Bool), R l l' → R (l.filter p) (l'.filter p)
  reverse : ∀ {l l'}, R l l' → R l.reverse l'.reverse

namespace Carried

variable {R : List (Context τ ν) → List (Context τ ν) → Prop}

/-- Changing each context alike keeps the lists related. -/
theorem map (carried : Carried R) {l l' : List (Context τ ν)} (F : Context τ ν → Context τ ν) (h : R l l') :
    R (l.map F) (l'.map F) := by
  rw [List.map_eq_flatMap, List.map_eq_flatMap]
  exact carried.flatMap h fun d _ => carried.refl [F d]

/-- What is gathered from one list is related if what each member gives is. -/
theorem gathered (carried : Carried R) {α : Type} {f f' : α → List (Context τ ν)} (l : List α)
    (h : ∀ a, R (f a) (f' a)) : R (l.flatMap f) (l.flatMap f') := by
  induction l with
  | nil => exact carried.refl []
  | cons a l ih => exact carried.append (h a) ih

variable {ignores : Predicate τ ν} {stream : List τ}

/-- Repetitions of bodies that end in related lists end in related lists. -/
theorem star (carried : Carried R) {a a' : Pattern τ ν}
    (body : ∀ c, R (a.ends ignores stream c).value (a'.ends ignores stream c).value) (c : Context τ ν) :
    R (a.star.ends ignores stream c).value (a'.star.ends ignores stream c).value := by
  induction c using star_induction ignores stream a with
  | step c rest =>
      have round : R (advances c (a.ends ignores stream c).value) (advances c (a'.ends ignores stream c).value) :=
        carried.reverse (carried.filter _ (body c))
      rw [value_ends_star_eq, value_ends_star_eq]
      exact carried.append (carried.refl [c]) (carried.flatMap round rest)

/-- **If what a part ends in is related, so is what the whole ends in.** -/
theorem fill (carried : Carried R) {q q' : Pattern τ ν}
    (alike : ∀ c, R (q.ends ignores stream c).value (q'.ends ignores stream c).value)
    (s : Surroundings τ ν) (c : Context τ ν) :
    R ((s.fill q).ends ignores stream c).value ((s.fill q').ends ignores stream c).value := by
  induction s generalizing c with
  | gap => exact alike c
  | seqFirst s b ih =>
      rw [Surroundings.fill, Surroundings.fill, value_ends_seq, value_ends_seq]
      exact carried.flatMap (ih c) fun d _ => carried.refl _
  | seqSecond a s ih =>
      rw [Surroundings.fill, Surroundings.fill, value_ends_seq, value_ends_seq]
      exact carried.flatMap (carried.refl _) fun d _ => ih d
  | altLeft s b ih =>
      rw [Surroundings.fill, Surroundings.fill, value_ends_alt, value_ends_alt]
      exact carried.append (ih c) (carried.refl _)
  | altRight a s ih =>
      rw [Surroundings.fill, Surroundings.fill, value_ends_alt, value_ends_alt]
      exact carried.append (carried.refl _) (ih c)
  | starBody s ih => exact carried.star ih c

/-- What is found of two patterns is related if what they end in is, whether a search stands still or scans. -/
theorem contexts (carried : Carried R) {m m' : Matcher τ ν} (options : m'.options = m.options)
    (alike : ∀ c, R (m.pattern.ends m.options.ignores stream c).value
      (m'.pattern.ends m.options.ignores stream c).value) (c : Context τ ν) :
    R (m.contexts stream c).value (m'.contexts stream c).value := by
  unfold Matcher.contexts
  rw [options]
  generalize (if m.options.debug then c.withDebug true else c) = c
  split
  · rw [value_scan, value_scan]
    exact carried.gathered _ fun i => carried.map _ (alike _)
  · rw [value_span, value_span]
    exact carried.filter _ (alike _)

/-- **Parts that are checked alike and whose ends are related may replace each other.** -/
theorem interchangeable (carried : Carried R) {q q' : Pattern τ ν} (forth : q'.NoStricterThan q)
    (back : q.NoStricterThan q')
    (alike : ∀ ignores stream c, R (q.ends ignores stream c).value (q'.ends ignores stream c).value)
    (s : Surroundings τ ν) : Interchangeable R (s.fill q) (s.fill q') := by
  intro options
  refine ⟨⟨(forth.fill s).exists_compile, (back.fill s).exists_compile⟩, fun m m' hm hm' stream c => ?_⟩
  obtain ⟨hq, rfl⟩ := Pattern.compile_eq_ok.1 hm
  obtain ⟨hq', options⟩ := Pattern.compile_eq_ok.1 hm'
  refine carried.contexts options (fun d => ?_) c
  rw [hq, hq']
  exact carried.fill (alike _ _) s d

end Carried

/-- Equal lists are carried to equal lists. -/
theorem carried_eq : Carried (τ := τ) (ν := ν) (· = ·) where
  refl _ := rfl
  append left right := congrArg₂ _ left right
  flatMap h hf := h ▸ List.flatMap_congr hf
  filter _ h := congrArg _ h
  reverse h := congrArg _ h

/-- Permuted lists are carried to permuted lists; the order of a repetition is turned on both sides. -/
theorem carried_perm : Carried (τ := τ) (ν := ν) (· ~ ·) where
  refl := .refl
  append left right := left.append right
  flatMap h hf := h.flatMap hf
  filter p h := h.filter p
  reverse h := (List.reverse_perm _).trans (h.trans (List.reverse_perm _).symm)

/-- Patterns that end alike, order included, are found alike. -/
theorem value_contexts_congr {m m' : Matcher τ ν} {stream : List τ} (options : m'.options = m.options)
    (alike : ∀ c, (m.pattern.ends m.options.ignores stream c).value =
      (m'.pattern.ends m.options.ignores stream c).value) (c : Context τ ν) :
    (m.contexts stream c).value = (m'.contexts stream c).value :=
  carried_eq.contexts options alike c

/-- Parts of one language whose rounds consume alike, and which end alike up to the order, may replace each other. -/
theorem interchangeable_fill {q q' : Pattern τ ν} (same : q.language = q'.language)
    (consume : q.RoundsConsume ↔ q'.RoundsConsume)
    (alike : ∀ ignores stream c, (q.ends ignores stream c).value ~ (q'.ends ignores stream c).value)
    (s : Surroundings τ ν) : Interchangeable List.Perm (s.fill q) (s.fill q') :=
  carried_perm.interchangeable (.of_language same consume.1) (.of_language same.symm consume.2) alike s

end Lists

end Sequence
end LoopPlumbing
