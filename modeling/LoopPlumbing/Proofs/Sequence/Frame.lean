/- # What is unrelated does not matter

A context may start out with slots bound and tokens recorded that have nothing to do with the grammar.  They are a
frame: `d.over base` is `d` with what `base` has bound and recorded underneath, and as long as `base` binds no slot
that a formula captures or reads, the formula can not tell `d.over base` from `d` (`value_test_over`).  So the engine
runs alike from both, and what it lists differs by the frame only (`value_contexts_over`); and it binds no other slots
than those of the grammar (`mem_slots_of_mem_contexts`).

Slots are told apart by their identities.  With other names a grammar still compiles (`exists_check_renamed`), and
runs as before (`ends_renamed`).
-/

import LoopPlumbing.Proofs.Sequence.Path
import LoopPlumbing.Proofs.Sequence.Simulation

namespace LoopPlumbing
namespace Sequence

variable {τ ν : Type}

/-- The context `d` with what `base` has bound and recorded underneath. -/
def Context.over (d base : Context τ ν) : Context τ ν :=
  ⟨d.position, d.bindings ++ base.bindings, base.recorded ++ d.recorded, d.debug⟩

/-- The slots that a formula captures or reads, under a negation too. -/
def Formula.slots : Formula τ ν → List Slot
  | capture s _ => [s]
  | equalsBound s _ => [s]
  | and f g => f.slots ++ g.slots
  | or f g => f.slots ++ g.slots
  | negate f => f.slots
  | always | never | satisfying _ | recording | checkpoint _ => []

/-- The slots that the formulas of a grammar capture or read. -/
def Grammar.slots : Grammar τ ν → List Slot
  | token f => f.slots
  | seq a b => a.slots ++ b.slots
  | alt a b => a.slots ++ b.slots
  | star a => a.slots

/-! ### Tests

A formula looks at the slots it mentions and at no others.
-/

section Tests

variable {base d : Context τ ν} {s : Slot}

/-- A slot is bound to what it is bound to above the frame, and otherwise to what it is bound to in the frame. -/
theorem Context.value?_over : (d.over base).value? s = (d.value? s).or (base.value? s) :=
  List.lookup_append

/-- A slot that the base does not bind has the value that it has without the base. -/
theorem Context.value?_over_of_unbound (h : base.isBound s = false) : (d.over base).value? s = d.value? s := by
  rw [isBound, Option.isSome_eq_false_iff, Option.isNone_iff_eq_none] at h
  rw [value?_over, h, Option.or_none]

/-- Storing in a slot that the base does not bind succeeds or fails as it does without the base. -/
theorem Context.store_over (h : base.isBound s = false) (v : ν) :
    (d.over base).store s v = (d.store s v).map (·.over base) := by
  rw [store, store, isBound, value?_over_of_unbound h, ← isBound]
  split <;> rfl

variable [BEq ν]

/-- **A formula does not look at the frame**, and leaves it as it is. -/
theorem value_test_over {f : Formula τ ν} (unrelated : ∀ s ∈ f.slots, base.isBound s = false)
    (d : Context τ ν) (t : τ) :
    ((f.predicate .equalsBound).test (d.over base) t).value =
      ((f.predicate .equalsBound).test d t).value.map (·.over base) := by
  induction f generalizing d with
  | always | never | checkpoint label => rfl
  | satisfying p =>
      rw [Formula.predicate, Predicate.value_test_satisfying, Predicate.value_test_satisfying]
      split <;> rfl
  | recording =>
      rw [Formula.predicate, Predicate.value_test_recording, Predicate.value_test_recording, Option.map_some,
        Context.record, Context.over, Context.over, Context.record, List.append_assoc]
  | capture s extract =>
      rw [Formula.predicate, Predicate.value_test_capture, Predicate.value_test_capture, Option.map_bind]
      refine congrArg _ (funext fun v => ?_)
      exact Context.store_over (unrelated s List.mem_cons_self) v
  | equalsBound s extract =>
      rw [Formula.predicate, Predicate.value_test_equalsBound, Predicate.value_test_equalsBound,
        Context.value?_over_of_unbound (unrelated s List.mem_cons_self), Option.map_bind]
      refine congrArg _ (funext fun v => ?_)
      rw [Function.comp_apply, Option.map_bind]
      refine congrArg _ (funext fun w => ?_)
      rw [Function.comp_apply]
      split <;> rfl
  | and f g hf hg =>
      have onward := hg fun s hs => unrelated s (List.mem_append_right _ hs)
      rw [Formula.predicate, Predicate.value_test_and, Predicate.value_test_and,
        hf fun s hs => unrelated s (List.mem_append_left _ hs), Option.bind_map, Option.map_bind]
      exact congrArg _ (funext onward)
  | or f g hf hg =>
      rw [Formula.predicate, Predicate.value_test_or, Predicate.value_test_or,
        hf fun s hs => unrelated s (List.mem_append_left _ hs),
        hg fun s hs => unrelated s (List.mem_append_right _ hs), Option.map_or]
  | negate f hf =>
      rw [Formula.predicate, Predicate.value_test_negate, Predicate.value_test_negate, hf unrelated,
        Option.isSome_map]
      split <;> rfl

end Tests

/-! ### The engine

The engine treats bindings and recordings only through tests, and the tests do not see the base.
-/

section Engine

variable [BEq ν] {base : Context τ ν} {ignores : Predicate τ ν} {stream : List τ}

/-- A token whose formula mentions no slot of the base ends as it does without the base. -/
theorem value_tokenEnds_over {f : Formula τ ν} (unrelated : ∀ s ∈ f.slots, base.isBound s = false)
    (d : Context τ ν) :
    (tokenEnds ignores stream (f.predicate .equalsBound) (d.over base)).value =
      (tokenEnds ignores stream (f.predicate .equalsBound) d).value.map (·.over base) := by
  rw [value_tokenEnds, value_tokenEnds, walk_cons, walk_cons]
  have same : (d.over base).position = d.position := rfl
  rw [same]
  cases remaining ignores stream d.position with
  | nil => rfl
  | cons x tokens =>
      have tested := value_test_over unrelated (d.moveTo x.2) x.1
      have moved : (d.over base).moveTo x.2 = (d.moveTo x.2).over base := rfl
      rw [List.head?_cons, Option.bind_some, Option.bind_some, moved, tested]
      cases ((f.predicate .equalsBound).test (d.moveTo x.2) x.1).value <;> rfl

/-- The slots of a formula of the grammar are slots of the grammar. -/
theorem Grammar.exists_formula_of_mem_predicates {g : Grammar τ ν} {p : Predicate τ ν}
    (hp : p ∈ (g.pattern .equalsBound).predicates) :
    ∃ f : Formula τ ν, p = f.predicate .equalsBound ∧ f.slots ⊆ g.slots := by
  induction g with
  | token f => exact ⟨f, List.mem_singleton.1 hp, List.Subset.refl _⟩
  | seq a b iha ihb | alt a b iha ihb =>
      rcases List.mem_append.1 hp with hp | hp
      · obtain ⟨f, rfl, hf⟩ := iha hp
        exact ⟨f, rfl, List.subset_append_of_subset_left _ hf⟩
      · obtain ⟨f, rfl, hf⟩ := ihb hp
        exact ⟨f, rfl, List.subset_append_of_subset_right _ hf⟩
  | star a ih => exact ih hp

/-- **A grammar ends alike with the frame and without.** -/
theorem value_ends_over {g : Grammar τ ν} (hq : (g.pattern .equalsBound).RoundsConsume)
    (unrelated : ∀ s ∈ g.slots, base.isBound s = false) (d : Context τ ν) :
    ((g.pattern .equalsBound).ends ignores stream (d.over base)).value =
      ((g.pattern .equalsBound).ends ignores stream d).value.map (·.over base) := by
  refine value_ends_eq_map (F := (·.over base)) hq (fun p hp d => ?_) d
  obtain ⟨f, rfl, hf⟩ := Grammar.exists_formula_of_mem_predicates hp
  exact value_tokenEnds_over (fun s hs => unrelated s (hf hs)) d

/-- **A matcher lists the same with the frame and without**, but for the frame. -/
theorem value_contexts_over {g : Grammar τ ν} {m : Matcher τ ν} (hm : m.pattern = g.pattern .equalsBound)
    (unrelated : ∀ s ∈ g.slots, base.isBound s = false) (stream : List τ) (d : Context τ ν) :
    (m.contexts stream (d.over base)).value = (m.contexts stream d).value.map (·.over base) := by
  obtain ⟨bound, checked⟩ := m.checked
  have hq := Pattern.roundsConsume_of_check checked
  rw [hm] at hq
  have forced : (if m.options.debug then (d.over base).withDebug true else d.over base) =
      (if m.options.debug then d.withDebug true else d).over base := by
    split <;> rfl
  unfold Matcher.contexts
  rw [forced, hm]
  generalize (if m.options.debug then d.withDebug true else d) = d
  have moved : ∀ i, (d.over base).moveTo i = (d.moveTo i).over base := fun _ => rfl
  split
  · rw [value_scan, value_scan, List.map_flatMap]
    refine List.flatMap_congr fun i _ => ?_
    rw [moved, value_ends_over hq unrelated, List.map_map, List.map_map]
    rfl
  · rw [value_span, value_span, moved, value_ends_over hq unrelated, List.filter_map]
    rfl

end Engine

/-! ### Bindings that do not meet

What a match binds is what it captures, so the slots it binds are not among those of the base.
-/

section Disjoint

/-- A slot that a formula captures is one that it mentions. -/
theorem Formula.mem_slots_of_mem_captures {f : Formula τ ν} {s : Slot} {extract : τ → Option ν}
    (h : (s, extract) ∈ f.captures) : s ∈ f.slots := by
  induction f with
  | capture s' extract' =>
      obtain ⟨rfl, -⟩ := Prod.mk.inj (List.mem_singleton.1 h)
      exact List.mem_singleton_self s
  | and f g hf hg | or f g hf hg =>
      exact (List.mem_append.1 h).elim (List.mem_append_left _ ∘ hf) (List.mem_append_right _ ∘ hg)
  | always | never | satisfying | recording | checkpoint | equalsBound | negate => cases h

/-- The formulas of a word have no other slots than the grammar. -/
theorem Grammar.slots_subset_of_mem_language {g : Grammar τ ν} {word : List (Formula τ ν)}
    (h : word ∈ g.language) : ∀ f ∈ word, f.slots ⊆ g.slots := by
  induction g generalizing word with
  | token f =>
      rw [Set.mem_singleton_iff.1 h]
      exact fun f' hf' => List.mem_singleton.1 hf' ▸ List.Subset.refl _
  | seq a b iha ihb =>
      obtain ⟨u, hu, v, hv, rfl⟩ := Language.mem_mul.1 h
      intro f hf
      rcases List.mem_append.1 hf with hf | hf
      · exact List.subset_append_of_subset_left _ (iha hu f hf)
      · exact List.subset_append_of_subset_right _ (ihb hv f hf)
  | alt a b iha ihb =>
      intro f hf
      rcases h with h | h
      · exact List.subset_append_of_subset_left _ (iha h f hf)
      · exact List.subset_append_of_subset_right _ (ihb h f hf)
  | star a ih =>
      obtain ⟨rounds, rfl, words⟩ := Language.mem_kstar.1 h
      intro f hf
      obtain ⟨round, hround, hf⟩ := List.mem_flatten.1 hf
      exact ih (words round hround) f hf

variable [BEq ν]

/-- **A grammar binds no other slots than its own.** -/
theorem mem_slots_of_mem_contexts {g : Grammar τ ν} {m : Matcher τ ν} (hm : m.pattern = g.pattern .equalsBound)
    {stream : List τ} {b : Bool} {d : Context τ ν}
    (hd : d ∈ (m.contexts stream (Context.start.withDebug b)).value) {s : Slot} (hs : d.isBound s = true) :
    ∃ s' ∈ g.slots, s'.id = s.id := by
  obtain ⟨start, stop, ⟨path⟩⟩ := exists_path_of_mem_contexts hm hd
  obtain ⟨v, hv⟩ := Option.isSome_iff_exists.1 hs
  have nothing : ∀ c : Context τ ν, c.bindings = [] → c.value? s = none := fun c hc => by
    rw [Context.value?, hc]
    rfl
  obtain ⟨x, hx, s', extract, same, captured, -⟩ :=
    path.trail.growsAlong.captured s v (nothing _ (by split <;> rfl)) hv
  exact ⟨s', Grammar.slots_subset_of_mem_language path.reads _ (List.mem_map_of_mem hx)
    (Formula.mem_slots_of_mem_captures captured), same⟩

end Disjoint

/-! ### Names of slots

A slot is told from others by its identifier.  Its name is for messages only, so it may be replaced in a whole grammar
without a trace in the matches.
-/

section Names

/-- The slot under another name. -/
def Slot.renamed (name : Slot → String) (s : Slot) : Slot := ⟨s.id, name s⟩

/-- The formula with its slots under other names. -/
def Formula.renamed (name : Slot → String) : Formula τ ν → Formula τ ν
  | always => always
  | never => never
  | satisfying p => satisfying p
  | recording => recording
  | checkpoint label => checkpoint label
  | capture s extract => capture (s.renamed name) extract
  | equalsBound s extract => equalsBound (s.renamed name) extract
  | and f g => and (f.renamed name) (g.renamed name)
  | or f g => or (f.renamed name) (g.renamed name)
  | negate f => negate (f.renamed name)

/-- The grammar with its slots under other names. -/
def Grammar.renamed (name : Slot → String) : Grammar τ ν → Grammar τ ν
  | token f => token (f.renamed name)
  | seq a b => seq (a.renamed name) (b.renamed name)
  | alt a b => alt (a.renamed name) (b.renamed name)
  | star a => star (a.renamed name)

variable [BEq ν] (name : Slot → String)

/-- A test does not depend on the names of slots. -/
theorem test_renamed (f : Formula τ ν) :
    ((f.renamed name).predicate .equalsBound).test = (f.predicate .equalsBound).test := by
  induction f with
  | always | never | satisfying | recording | checkpoint | capture | equalsBound => rfl
  | and f g hf hg | or f g hf hg =>
      funext c t
      simp only [Formula.renamed, Formula.predicate, Predicate.and, Predicate.or, hf, hg]
  | negate f hf =>
      funext c t
      simp only [Formula.renamed, Formula.predicate, Predicate.negate, hf]

/-- **The engine does not look at the names of slots.** -/
theorem ends_renamed (g : Grammar τ ν) (ignores : Predicate τ ν) (stream : List τ) :
    ((g.renamed name).pattern .equalsBound).ends ignores stream =
      (g.pattern .equalsBound).ends ignores stream := by
  induction g with
  | token f =>
      funext c
      simp only [Grammar.renamed, Grammar.pattern, Pattern.ends, tokenEnds, runTest, test_renamed]
  | seq a b iha ihb | alt a b iha ihb =>
      funext c
      simp only [Grammar.renamed, Grammar.pattern, Pattern.ends] at iha ihb ⊢
      rw [iha, ihb]
  | star a ih =>
      funext c
      simp only [Grammar.renamed, Grammar.pattern, Pattern.ends] at ih ⊢
      rw [ih]

/-- Under other names a formula requires no more slots and binds no fewer.  It may require fewer: two slots of one
identity may have got one name. -/
theorem declarations_renamed (f : Formula τ ν) :
    (∀ s' ∈ ((f.renamed name).predicate .equalsBound).requires,
      ∃ s ∈ (f.predicate .equalsBound).requires, s' = s.renamed name) ∧
    ∀ s ∈ (f.predicate .equalsBound).binds,
      s.renamed name ∈ ((f.renamed name).predicate .equalsBound).binds := by
  induction f with
  | always | never | satisfying | recording | checkpoint =>
      exact ⟨fun s hs => absurd hs List.not_mem_nil, fun s hs => absurd hs List.not_mem_nil⟩
  | capture s extract =>
      refine ⟨fun s' hs' => absurd hs' List.not_mem_nil, fun s' hs' => ?_⟩
      rw [List.mem_singleton.1 hs']
      exact List.mem_singleton_self _
  | equalsBound s extract =>
      refine ⟨fun s' hs' => ⟨s, List.mem_singleton_self _, List.mem_singleton.1 hs'⟩, fun s' hs' => ?_⟩
      exact absurd hs' List.not_mem_nil
  | and f g hf hg =>
      refine ⟨fun s' hs' => ?_, fun s hs => ?_⟩
      · rcases Predicate.mem_requires_and.1 hs' with hs' | ⟨hs', free⟩
        · obtain ⟨s, hs, rfl⟩ := hf.1 s' hs'
          exact ⟨s, Predicate.mem_requires_and.2 (.inl hs), rfl⟩
        · obtain ⟨s, hs, rfl⟩ := hg.1 s' hs'
          exact ⟨s, Predicate.mem_requires_and.2 (.inr ⟨hs, fun bound => free (hf.2 s bound)⟩), rfl⟩
      · exact Predicate.mem_binds_and.2 ((Predicate.mem_binds_and.1 hs).imp (hf.2 s) (hg.2 s))
  | or f g hf hg =>
      refine ⟨fun s' hs' => ?_, fun s hs => ?_⟩
      · rcases Predicate.mem_requires_or.1 hs' with hs' | hs'
        · obtain ⟨s, hs, rfl⟩ := hf.1 s' hs'
          exact ⟨s, Predicate.mem_requires_or.2 (.inl hs), rfl⟩
        · obtain ⟨s, hs, rfl⟩ := hg.1 s' hs'
          exact ⟨s, Predicate.mem_requires_or.2 (.inr hs), rfl⟩
      · exact Predicate.mem_binds_or.2 ((Predicate.mem_binds_or.1 hs).imp (hf.2 s) (hg.2 s))
  | negate f hf => exact ⟨hf.1, fun s hs => absurd hs List.not_mem_nil⟩

/-- Whether a pattern can match nothing does not depend on the names of slots. -/
theorem nullable_renamed (g : Grammar τ ν) :
    ((g.renamed name).pattern .equalsBound).nullable = (g.pattern .equalsBound).nullable := by
  induction g with
  | token f | star a => rfl
  | seq a b iha ihb | alt a b iha ihb =>
      simp only [Grammar.renamed, Grammar.pattern, Pattern.nullable] at iha ihb ⊢
      rw [iha, ihb]

/-- **What passes the check passes it under other names**, and no fewer slots are bound afterwards. -/
theorem exists_check_renamed {g : Grammar τ ν} {bound after bound' : List Slot}
    (h : (g.pattern .equalsBound).check bound = .ok after)
    (hbound : ∀ s ∈ bound, s.renamed name ∈ bound') :
    ∃ after', ((g.renamed name).pattern .equalsBound).check bound' = .ok after' ∧
      ∀ s ∈ after, s.renamed name ∈ after' := by
  induction g generalizing bound after bound' with
  | token f =>
      obtain ⟨requires, binds⟩ := declarations_renamed name f
      obtain ⟨reads, rfl⟩ := Pattern.check_token_eq_ok.1 h
      refine ⟨_, Pattern.check_token_eq_ok.2 ⟨fun s' hs' => ?_, rfl⟩, fun s hs => ?_⟩
      · obtain ⟨s, hs, rfl⟩ := requires s' hs'
        exact hbound s (reads s hs)
      · rcases List.mem_append.1 hs with hs | hs
        · exact List.mem_append_left _ (hbound s hs)
        · exact List.mem_append_right _ (binds s hs)
  | seq a b iha ihb =>
      obtain ⟨middle, ha, hb⟩ := Pattern.check_seq_eq_ok.1 h
      obtain ⟨middle', ha', hmiddle⟩ := iha ha hbound
      obtain ⟨after', hb', hafter⟩ := ihb hb hmiddle
      exact ⟨after', Pattern.check_seq_eq_ok.2 ⟨middle', ha', hb'⟩, hafter⟩
  | alt a b iha ihb =>
      obtain ⟨left, right, ha, hb, rfl⟩ := Pattern.check_alt_eq_ok.1 h
      obtain ⟨left', ha', hleft⟩ := iha ha hbound
      obtain ⟨right', hb', hright⟩ := ihb hb hbound
      refine ⟨_, Pattern.check_alt_eq_ok.2 ⟨left', right', ha', hb', rfl⟩, fun s hs => ?_⟩
      obtain ⟨inLeft, inRight⟩ := List.mem_filter.1 hs
      exact List.mem_filter.2 ⟨hleft s inLeft, decide_eq_true (hright s (of_decide_eq_true inRight))⟩
  | star a ih =>
      obtain ⟨hn, ⟨inner, ha⟩, rfl⟩ := Pattern.check_star_eq_ok.1 h
      obtain ⟨inner', ha', -⟩ := ih ha hbound
      exact ⟨bound', Pattern.check_star_eq_ok.2 ⟨(nullable_renamed name a).trans hn, ⟨inner', ha'⟩, rfl⟩, hbound⟩

end Names

/-- **What the context to start from has bound and recorded is a frame.**  If a compiled grammar neither captures nor
reads a slot that is bound in the context to start from, then for every stream and all options it lists what it lists
from a context with nothing bound and nothing recorded, traced if the other is, in the same order and as often, with
what was bound added and what was recorded put in front; nothing is bound twice.  Which slots are meant is a matter of
their identities alone: under any other names the grammar compiles, and lists and reports the same. -/
theorem contexts_frame [BEq ν] {g : Grammar τ ν} {options : Options τ ν} {m : Matcher τ ν}
    (h : (g.pattern .equalsBound).compile options = .ok m) (stream : List τ) :
    (∀ c : Context τ ν, (∀ s ∈ g.slots, c.isBound s = false) →
      (m.contexts stream c).value =
          (m.contexts stream (Context.start.withDebug c.debug)).value.map (·.over c) ∧
        ∀ d ∈ (m.contexts stream (Context.start.withDebug c.debug)).value,
          ∀ s, c.isBound s = true → d.isBound s = false) ∧
    ∀ name : Slot → String, ∃ m', ((g.renamed name).pattern .equalsBound).compile options = .ok m' ∧
      m'.contexts stream = m.contexts stream := by
  obtain ⟨hm, rfl⟩ := Pattern.compile_eq_ok.1 h
  refine ⟨fun c unrelated => ⟨?_, fun d hd s hs => ?_⟩, fun name => ?_⟩
  · have framed : (Context.start.withDebug c.debug).over c = c.moveTo 0 :=
      congrArg (Context.mk 0 c.bindings · c.debug) (List.append_nil _)
    rw [← value_contexts_over hm unrelated, framed]
    -- The cursor is set anew for each start.
    unfold Matcher.contexts
    cases m.options.debug <;> rfl
  · by_contra bound
    obtain ⟨s', hs', same⟩ := mem_slots_of_mem_contexts hm hd (Bool.not_eq_false _ ▸ bound)
    have free := unrelated s' hs'
    rw [Context.isBound, Context.value?, same] at free
    exact Bool.false_ne_true (free.symm.trans hs)
  · obtain ⟨bound, checked⟩ := m.checked
    rw [hm] at checked
    have unread : ∀ s ∈ ([] : List Slot), s.renamed name ∈ ([] : List Slot) :=
      fun s hs => absurd hs List.not_mem_nil
    obtain ⟨after, checked', -⟩ := exists_check_renamed name checked unread
    refine ⟨⟨_, m.options, after, checked'⟩, Pattern.compile_eq_ok.2 ⟨rfl, rfl⟩, contexts_congr rfl ?_⟩
    rw [hm]
    exact ends_renamed name g _ _

/-- A letter, which is recorded, and the letter again. -/
def doubled : Grammar Char Char :=
  .seq (.token (.and (.capture ⟨0, "letter"⟩ some) .recording)) (.token (.equalsBound ⟨0, "letter"⟩ some))

/-- In `aab` the doubled letter is found although another slot called `letter` is bound to `z`, and whatever the slots
are called. -/
theorem contexts_doubled :
    ∃ m, (doubled.pattern .equalsBound).compile ⟨.never, true, false⟩ = .ok m ∧
      ∃ c : Context Char Char, c.value? ⟨2, "letter"⟩ = some 'z' ∧
        (m.contexts ['a', 'a', 'b'] c).value = [⟨3, [(0, 'a'), (2, 'z')], ['z', 'a'], true⟩] ∧
        ((∀ s ∈ doubled.slots, c.isBound s = false) ∧
          (m.contexts ['a', 'a', 'b'] c).value =
              (m.contexts ['a', 'a', 'b'] (Context.start.withDebug c.debug)).value.map (·.over c) ∧
          ∀ d ∈ (m.contexts ['a', 'a', 'b'] (Context.start.withDebug c.debug)).value,
            ∀ s, c.isBound s = true → d.isBound s = false) ∧
        ∃ m', ((doubled.renamed fun _ => "x").pattern .equalsBound).compile ⟨.never, true, false⟩ = .ok m' ∧
          m'.contexts ['a', 'a', 'b'] = m.contexts ['a', 'a', 'b'] := by
  let m : Matcher Char Char := ⟨doubled.pattern .equalsBound, ⟨.never, true, false⟩, _, rfl⟩
  have compiled : (doubled.pattern .equalsBound).compile ⟨.never, true, false⟩ = .ok m := rfl
  let c : Context Char Char := ⟨5, [(2, 'z')], ['z'], true⟩
  have unrelated : ∀ s ∈ doubled.slots, c.isBound s = false := by decide
  obtain ⟨framed, named⟩ := contexts_frame compiled ['a', 'a', 'b']
  exact ⟨m, compiled, c, rfl, by decide, ⟨unrelated, framed c unrelated⟩, named _⟩

end Sequence
end LoopPlumbing
