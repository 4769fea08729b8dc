/- # Contexts grow along paths

A context that a grammar ends in has a path of its own: the formulas of one word of the grammar, each with the token
that it accepted and the effects with which it did (`Grammar.Path`).  The steps of a path take the tokens that are
not passed over one after the other (`Trail.remaining_eq`), and the context is the one it started from with the
effects of these steps and no others (`Trail.eq_applyAll`).

So whatever a context has beyond its start can be traced to a step of its own path (`Trail.growsAlong`); what other
branches of an alternation or other numbers of rounds do to their contexts never shows in it.

A derivation would not do for this purpose: it says which predicates were tested, and not what an accepted token did
to the context.  So a step keeps the effects, and the rules for verdicts (`Formula.Verdict`) say which effects a
formula can have.
-/

import LoopPlumbing.Proofs.Sequence.Check
import LoopPlumbing.Proofs.Sequence.Search
import LoopPlumbing.Proofs.Sequence.Verdict
import LoopPlumbing.Proofs.Sequence.Walk
import Mathlib.Computability.Language

namespace LoopPlumbing
namespace Sequence

open scoped Computability

variable {τ ν : Type}

/-! ### Steps, trails and paths

A trail says what the engine does step by step; a path adds that the formulas of the steps are a word of the
grammar.
-/

/-- The words of formulas that a grammar stands for. -/
def Grammar.language : Grammar τ ν → Language (Formula τ ν)
  | token f => {[f]}
  | seq a b => a.language * b.language
  | alt a b => a.language + b.language
  | star a => a.language∗

/-- A formula that has accepted a token with some effects. -/
structure Step (τ ν : Type) where
  formula : Formula τ ν
  token : τ
  offset : ℕ
  effects : List (Effect τ ν)

namespace Step

/-- The token with its position. -/
def place (x : Step τ ν) : τ × ℕ := (x.token, x.offset)

/-- The step, once for each recording in it. -/
def recordings (x : Step τ ν) : List (Step τ ν) := (x.effects.filterMap (·.recording?)).map fun _ => x

end Step

variable [BEq ν]

/-- The steps lead from the first context to the last: each accepts the next token that is not passed over, in the
context that the steps before it have left, and puts the cursor behind that token. -/
inductive Trail (ignores : Predicate τ ν) (stream : List τ) :
    Context τ ν → List (Step τ ν) → Context τ ν → Prop where
  | nil {c} : Trail ignores stream c [] c
  | cons {c d : Context τ ν} {x : Step τ ν} {steps : List (Step τ ν)}
    (next : (remaining ignores stream c.position).head? = some x.place)
    (accepted : x.formula.Verdict x.token (c.moveTo x.offset) (some x.effects))
    (rest : Trail ignores stream (((c.moveTo x.offset).applyAll x.effects).moveTo (x.offset + 1)) steps d) :
    Trail ignores stream c (x :: steps) d

/-- A way on which the grammar leads from one context to another. -/
structure Grammar.Path (g : Grammar τ ν) (ignores : Predicate τ ν) (stream : List τ) (c d : Context τ ν) where
  steps : List (Step τ ν)
  reads : steps.map (·.formula) ∈ g.language
  trail : Trail ignores stream c steps d

/-- All effects on the way. -/
def Grammar.Path.effects {g : Grammar τ ν} {ignores : Predicate τ ν} {stream : List τ} {c d : Context τ ν}
    (path : g.Path ignores stream c d) : List (Effect τ ν) := path.steps.flatMap (·.effects)

/-- On the way the token at the offset is recorded. -/
def Grammar.Path.Records {g : Grammar τ ν} {ignores : Predicate τ ν} {stream : List τ} {c d : Context τ ν}
    (path : g.Path ignores stream c d) (offset : ℕ) : Prop :=
  ∃ x ∈ path.steps, x.offset = offset ∧ Effect.record x.token ∈ x.effects

omit [BEq ν] in
/-- What the context `d` has beyond the context `c`, it has from the steps. -/
structure Context.GrowsAlong (steps : List (Step τ ν)) (c d : Context τ ν) : Prop where
  /-- A slot that was bound is bound to the same value. -/
  kept : ∀ s v, c.value? s = some v → d.value? s = some v
  /-- A slot that was not bound is bound to what a capture of that slot has extracted from the token of a step. -/
  captured : ∀ s v, c.value? s = none → d.value? s = some v →
    ∃ x ∈ steps, ∃ (s' : Slot) (extract : τ → Option ν),
      s'.id = s.id ∧ (s', extract) ∈ x.formula.captures ∧ extract x.token = some v
  /-- Behind what was recorded stand tokens of steps, in the order of the stream. -/
  recorded : ∃ marked : List (Step τ ν), marked ⊆ steps ∧ marked.Pairwise (·.offset ≤ ·.offset) ∧
    d.recorded = c.recorded ++ marked.map (·.token)

/-! ### What holds of a trail

By induction on the trail: the effects of its steps add up, and each lies on the token of its own step.
-/

omit [BEq ν] in
/-- The remaining tokens stand in the order of the stream. -/
theorem pairwise_remaining (ignores : Predicate τ ν) (stream : List τ) (position : ℕ) :
    (remaining ignores stream position).Pairwise (·.2 < ·.2) := by
  refine List.Pairwise.filter _ (List.pairwise_map.1 ?_)
  rw [List.zipIdx_map_snd]
  exact List.pairwise_lt_range'

namespace Trail

variable {ignores : Predicate τ ν} {stream : List τ} {c d e : Context τ ν} {steps steps' : List (Step τ ν)}

/-- A trail may be followed by another that begins where it ends. -/
theorem append (h : Trail ignores stream c steps d) (h' : Trail ignores stream d steps' e) :
    Trail ignores stream c (steps ++ steps') e := by
  induction h with
  | nil => exact h'
  | cons next accepted _ ih => exact .cons next accepted (ih h')

/-- **The steps take the remaining tokens one after the other.** -/
theorem remaining_eq (h : Trail ignores stream c steps d) :
    remaining ignores stream c.position = steps.map (·.place) ++ remaining ignores stream d.position := by
  induction h with
  | nil => rfl
  | @cons c d x steps next _ _ ih =>
      obtain ⟨tokens, first⟩ := List.head?_eq_some_iff.1 next
      have behind : remaining ignores stream (x.offset + 1) = tokens := remaining_succ first
      rw [first, List.map_cons, List.cons_append, ← ih]
      exact congrArg (_ :: ·) behind.symm

/-- Each step stands further on than those before it. -/
theorem pairwise_offset (h : Trail ignores stream c steps d) : steps.Pairwise (·.offset < ·.offset) := by
  have ordered := pairwise_remaining ignores stream c.position
  rw [h.remaining_eq, List.pairwise_append, List.pairwise_map] at ordered
  exact ordered.1

/-- No step is at a token that is passed over. -/
theorem getElem?_offset (h : Trail ignores stream c steps d) {x : Step τ ν} (hx : x ∈ steps) :
    stream[x.offset]? = some x.token ∧ (isIgnored ignores x.token).value = false := by
  have there : x.place ∈ remaining ignores stream c.position := by
    rw [h.remaining_eq]
    exact List.mem_append_left _ (List.mem_map_of_mem hx)
  exact getElem?_of_mem_remaining there

/-- **A context owes all that it has to its start and its own steps.** -/
theorem eq_applyAll (h : Trail ignores stream c steps d) :
    d = (c.applyAll (steps.flatMap (·.effects))).moveTo d.position := by
  induction h with
  | nil => rfl
  | cons _ _ _ ih =>
      rw [List.flatMap_cons, Context.applyAll_append]
      rw [Context.applyAll_moveTo, Context.applyAll_moveTo, Context.applyAll_moveTo] at ih
      exact ih

/-- Every effect on a trail is one that the formula of its step can have on its token. -/
theorem stemsFrom (h : Trail ignores stream c steps d) :
    ∀ x ∈ steps, ∀ e ∈ x.effects, e.StemsFrom x.formula x.token := by
  induction h with
  | nil => exact fun x hx => absurd hx List.not_mem_nil
  | cons _ accepted _ ih =>
      intro x hx
      rcases List.mem_cons.1 hx with rfl | hx
      · exact Formula.stemsFrom_of_verdict accepted
      · exact ih x hx

/-- A value that was bound stays as it is along a trail. -/
theorem value?_of_value? (h : Trail ignores stream c steps d) {s : Slot} {v : ν}
    (hs : c.value? s = some v) : d.value? s = some v := by
  induction h with
  | nil => exact hs
  | cons _ accepted _ ih => exact ih (Formula.value?_of_verdict accepted hs)

/-- What the steps record are the tokens at which they record. -/
theorem recording?_effects (h : Trail ignores stream c steps d) :
    (steps.flatMap (·.effects)).filterMap (·.recording?) = (steps.flatMap (·.recordings)).map (·.token) := by
  rw [List.filterMap_flatMap, List.map_flatMap]
  refine List.flatMap_congr fun x hx => ?_
  have onToken : ∀ t ∈ x.effects.filterMap (·.recording?), x.token = t := by
    intro t ht
    obtain ⟨e, he, hr⟩ := List.mem_filterMap.1 ht
    have stems := h.stemsFrom x hx e he
    cases e with
    | bind s v => cases hr
    | record t' =>
        cases hr
        exact stems.symm
  rw [Step.recordings, List.map_map]
  exact ((List.map_congr_left onToken).trans (List.map_id _)).symm

/-- **A context grows along its own steps and in no other way.** -/
theorem growsAlong (h : Trail ignores stream c steps d) : c.GrowsAlong steps d where
  kept s v hs := h.value?_of_value? hs
  captured s v unbound hs := by
    rw [h.eq_applyAll] at hs
    rcases c.value?_applyAll_eq_some hs with hs | ⟨s', same, bound⟩
    · rw [unbound] at hs
      cases hs
    · obtain ⟨x, hx, he⟩ := List.mem_flatMap.1 bound
      obtain ⟨extract, hs', hv⟩ := h.stemsFrom x hx _ he
      exact ⟨x, hx, s', extract, same, hs', hv⟩
  recorded := by
    have ofStep : ∀ x : Step τ ν, ∀ y ∈ x.recordings, y = x := fun x y hy => by
      obtain ⟨-, -, rfl⟩ := List.mem_map.1 hy
      rfl
    refine ⟨steps.flatMap (·.recordings), fun y hy => ?_, List.pairwise_flatMap.2 ⟨fun x _ => ?_, ?_⟩, ?_⟩
    · obtain ⟨x, hx, hy⟩ := List.mem_flatMap.1 hy
      exact ofStep x y hy ▸ hx
    · exact List.pairwise_map.2 (List.pairwise_of_forall fun _ _ => le_rfl)
    · refine h.pairwise_offset.imp fun {x y} lt x' hx' y' hy' => ?_
      rw [ofStep x x' hx', ofStep y y' hy']
      exact lt.le
    · rw [h.eq_applyAll, Context.applyAll_eq, ← h.recording?_effects]
      rfl

end Trail

/-! ### From trails to paths -/

/-- **What a context has recorded, its path has recorded at some offset.**  A token may stand at several offsets, and
the context does not tell them apart; its path does. -/
theorem Grammar.Path.mem_recorded_iff {g : Grammar τ ν} {ignores : Predicate τ ν} {stream : List τ}
    {c d : Context τ ν} (path : g.Path ignores stream c d) {t : τ} :
    t ∈ d.recorded ↔ t ∈ c.recorded ∨ ∃ offset, path.Records offset ∧ stream[offset]? = some t := by
  have grown : d.recorded = c.recorded ++ path.effects.filterMap (·.recording?) := by
    have owes := congrArg (·.recorded) path.trail.eq_applyAll
    rw [Context.applyAll_eq] at owes
    exact owes
  rw [grown, List.mem_append]
  refine or_congr_right ⟨fun h => ?_, ?_⟩
  · obtain ⟨e, he, ht⟩ := List.mem_filterMap.1 h
    obtain ⟨x, hx, he⟩ := List.mem_flatMap.1 he
    have stems := path.trail.stemsFrom x hx e he
    cases e with
    | bind s v => cases ht
    | record t' =>
        cases ht
        obtain rfl : t = x.token := stems
        exact ⟨x.offset, ⟨x, hx, rfl, he⟩, (path.trail.getElem?_offset hx).1⟩
  · rintro ⟨_, ⟨x, hx, rfl, he⟩, there⟩
    obtain rfl : x.token = t := Option.some.inj ((path.trail.getElem?_offset hx).1.symm.trans there)
    exact List.mem_filterMap.2 ⟨_, List.mem_flatMap.2 ⟨x, hx, he⟩, rfl⟩

/-! ### Paths to the ends

Every end is reached by a path, constructor by constructor: the path of a sequence is that of its parts one behind the
other, and the path of a repetition is that of its rounds.
-/

section Ends

variable {ignores : Predicate τ ν} {stream : List τ} {c d : Context τ ν}

/-- A formula takes one step. -/
theorem exists_path_token {f : Formula τ ν}
    (h : d ∈ (((Grammar.token f).pattern .equalsBound).ends ignores stream c).value) :
    Nonempty ((Grammar.token f).Path ignores stream c d) := by
  rw [Grammar.pattern, value_ends_token, value_tokenEnds, Option.mem_toList, walk_cons] at h
  obtain ⟨x, next, h⟩ := Option.bind_eq_some_iff.1 h
  obtain ⟨e, he, h⟩ := Option.bind_eq_some_iff.1 h
  obtain ⟨es, accepted, rfl⟩ := Formula.exists_verdict_of_test he
  cases h
  exact ⟨⟨[⟨f, x.1, x.2, es⟩], rfl, .cons next accepted .nil⟩⟩

/-- **Whatever a grammar ends in, it has reached on a path.** -/
theorem exists_path_of_mem_ends {g : Grammar τ ν}
    (h : d ∈ ((g.pattern .equalsBound).ends ignores stream c).value) :
    Nonempty (g.Path ignores stream c d) := by
  induction g generalizing c d with
  | token f => exact exists_path_token h
  | seq a b iha ihb =>
      rw [Grammar.pattern, value_ends_seq, List.mem_flatMap] at h
      obtain ⟨e, he, hd⟩ := h
      obtain ⟨first⟩ := iha he
      obtain ⟨second⟩ := ihb hd
      refine ⟨⟨first.steps ++ second.steps, ?_, first.trail.append second.trail⟩⟩
      rw [List.map_append]
      exact Language.mem_mul.2 ⟨_, first.reads, _, second.reads, rfl⟩
  | alt a b iha ihb =>
      rw [Grammar.pattern, value_ends_alt, List.mem_append] at h
      rcases h with h | h
      · obtain ⟨path⟩ := iha h
        exact ⟨⟨path.steps, .inl path.reads, path.trail⟩⟩
      · obtain ⟨path⟩ := ihb h
        exact ⟨⟨path.steps, .inr path.reads, path.trail⟩⟩
  | star a ih =>
      induction c using star_induction ignores stream (a.pattern .equalsBound) with
      | step c onward =>
          rw [Grammar.pattern, value_ends_star_eq, List.mem_cons, List.mem_flatMap] at h
          rcases h with rfl | ⟨e, he, hd⟩
          · exact ⟨⟨[], Language.nil_mem_kstar _, .nil⟩⟩
          · obtain ⟨round⟩ := ih (mem_advances.1 he).1
            obtain ⟨rest⟩ := onward e he hd
            obtain ⟨rounds, hrounds, words⟩ := Language.mem_kstar.1 rest.reads
            refine ⟨⟨round.steps ++ rest.steps, ?_, round.trail.append rest.trail⟩⟩
            rw [List.map_append, hrounds]
            refine Language.mem_kstar.2 ⟨_ :: rounds, rfl, fun word hword => ?_⟩
            rcases List.mem_cons.1 hword with rfl | hword
            · exact round.reads
            · exact words word hword

/-- **Whatever a search lists, it has reached on a path**, but for where the cursor is put. -/
theorem exists_path_of_mem_contexts {g : Grammar τ ν} {m : Matcher τ ν} (hm : m.pattern = g.pattern .equalsBound)
    (h : d ∈ (m.contexts stream c).value) :
    ∃ start stop, Nonempty (g.Path m.options.ignores stream
      ((if m.options.debug then c.withDebug true else c).moveTo start) (d.moveTo stop)) := by
  obtain ⟨start, stop, e, he, rfl⟩ := exists_mem_ends_of_mem_contexts h
  rw [hm] at he
  exact ⟨start, e.position, exists_path_of_mem_ends he⟩

end Ends

/-- **Contexts only grow, and only along their own paths.**  Each context that a compiled grammar lists, for every
stream, every choice of tokens to be passed over and every context to start from, is traced exactly if the options
or the context to start from ask for it, and has been reached on a path.  The steps of the path are the formulas of
a word of the grammar, each accepting a token further on that is not passed over.  But for the cursor the context is
the one it started from with the effects of these steps, by the verdicts of their formulas, and nothing else: what a
branch that was not taken, an operand that rejected or a negated formula has bound or recorded is not among them.
So what was bound is bound to the same value, what is newly bound comes from a capture on the path, and what is newly
recorded are tokens of the path in the order of the stream. -/
theorem contexts_grow_along_paths {g : Grammar τ ν} {options : Options τ ν} {m : Matcher τ ν}
    (h : (g.pattern .equalsBound).compile options = .ok m) (stream : List τ) (c : Context τ ν) :
    ∀ d ∈ (m.contexts stream c).value,
      d.debug = (options.debug || c.debug) ∧
      ∃ (start stop : ℕ)
        (path : g.Path options.ignores stream ((c.withDebug d.debug).moveTo start) (d.moveTo stop)),
        d = ((c.withDebug d.debug).applyAll path.effects).moveTo d.position ∧
        (∀ x ∈ path.steps, stream[x.offset]? = some x.token ∧
          (isIgnored options.ignores x.token).value = false) ∧
        path.steps.Pairwise (·.offset < ·.offset) ∧
        c.GrowsAlong path.steps d := by
  intro d hd
  obtain ⟨hm, rfl⟩ := Pattern.compile_eq_ok.1 h
  obtain ⟨start, stop, e, he, rfl⟩ := exists_mem_ends_of_mem_contexts hd
  rw [hm] at he
  have forced : (if m.options.debug then c.withDebug true else c) =
      c.withDebug (m.options.debug || c.debug) := by
    cases m.options.debug <;> rfl
  rw [forced] at he
  have debug : e.debug = (m.options.debug || c.debug) := by
    obtain ⟨path⟩ := exists_path_of_mem_ends he
    rw [path.trail.eq_applyAll, Context.applyAll_eq]
    rfl
  rw [← debug] at he
  obtain ⟨path⟩ := exists_path_of_mem_ends he
  have owes := path.trail.eq_applyAll
  rw [Context.applyAll_moveTo] at owes
  have grows := path.trail.growsAlong
  exact ⟨debug, start, e.position, path, congrArg (·.moveTo stop) owes,
    fun x hx => path.trail.getElem?_offset hx, path.trail.pairwise_offset,
    grows.kept, grows.captured, grows.recorded⟩

/-- A letter that is captured at the second try; then, beside a branch that captures and gets no further, a letter
which is not the same. -/
def secondTry : Grammar Char Char :=
  .seq
    (.token (.or (.and .recording (.and (.capture ⟨0, "letter"⟩ some) .never))
      (.and (.capture ⟨0, "letter"⟩ some) .recording)))
    (.alt (.seq (.token (.capture ⟨1, "other"⟩ some)) (.token .never))
      (.token (.negate (.and .recording (.equalsBound ⟨0, "letter"⟩ some)))))

/-- In `ab` the first letter is recorded once and bound once, and nothing is left of the other tries. -/
theorem contexts_secondTry :
    ∃ m, (secondTry.pattern .equalsBound).compile ⟨.never, false, true⟩ = .ok m ∧
      ∃ d, d ∈ (m.contexts ['a', 'b'] .start).value ∧ d = ⟨2, [(0, 'a')], ['a'], true⟩ ∧
        d.debug = (true || (Context.start : Context Char Char).debug) ∧
        ∃ (start stop : ℕ) (path : secondTry.Path .never ['a', 'b']
            ((Context.start.withDebug d.debug).moveTo start) (d.moveTo stop)),
          d = ((Context.start.withDebug d.debug).applyAll path.effects).moveTo d.position ∧
          (∀ x ∈ path.steps, ['a', 'b'][x.offset]? = some x.token ∧
            (isIgnored (.never : Predicate Char Char) x.token).value = false) ∧
          path.steps.Pairwise (·.offset < ·.offset) ∧
          Context.start.GrowsAlong path.steps d := by
  let m : Matcher Char Char := ⟨secondTry.pattern .equalsBound, ⟨.never, false, true⟩, _, rfl⟩
  have found : (⟨2, [(0, 'a')], ['a'], true⟩ : Context Char Char) ∈ (m.contexts ['a', 'b'] .start).value := by
    decide
  have compiled : (secondTry.pattern .equalsBound).compile ⟨.never, false, true⟩ = .ok m := rfl
  exact ⟨m, compiled, _, found, rfl, contexts_grow_along_paths compiled ['a', 'b'] .start _ found⟩

end Sequence
end LoopPlumbing
