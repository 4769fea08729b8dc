/- # What a formula does to a context

A formula rejects a token, or accepts it with effects: slots that it binds and recordings of the token, in the order
in which they happen.  `Formula.Verdict` says which, rule by rule.  An alternative has the effects of the operand that
accepted and no others; what a rejected operand did on its way is no part of any verdict, nor is anything that
happened under a negation.

The predicate of a formula carries its verdict out (`Formula.value_test_of_verdict`), and there always is one
(`Formula.exists_verdict`).  So what a test binds and records comes from captures and recordings that took part in
accepting the token, on that very token (`Formula.stemsFrom_of_verdict`), and no bound slot is bound again
(`Formula.value?_of_verdict`).
-/

import LoopPlumbing.Proofs.Sequence.Formula

namespace LoopPlumbing
namespace Sequence

variable {τ ν : Type}

/-! ### Effects -/

/-- One change to a context. -/
inductive Effect (τ ν : Type) where
  /-- A slot is bound. -/
  | bind (s : Slot) (v : ν)
  /-- A token is recorded. -/
  | record (t : τ)

namespace Effect

/-- What is bound, by the identity of the slot. -/
def binding? : Effect τ ν → Option (ℕ × ν)
  | bind s v => some (s.id, v)
  | record _ => none

/-- What is recorded. -/
def recording? : Effect τ ν → Option τ
  | bind _ _ => none
  | record t => some t

end Effect

/-! ### Carrying effects out -/

namespace Context

/-- The context behind one change. -/
def apply (c : Context τ ν) : Effect τ ν → Context τ ν
  | .bind s v => { c with bindings := (s.id, v) :: c.bindings }
  | .record t => c.record t

/-- The context behind some changes, the first of the list first. -/
def applyAll (c : Context τ ν) (es : List (Effect τ ν)) : Context τ ν := es.foldl apply c

variable (c : Context τ ν)

/-- Effects in a row are applied one after the other. -/
theorem applyAll_append (es fs : List (Effect τ ν)) :
    c.applyAll (es ++ fs) = (c.applyAll es).applyAll fs := List.foldl_append

/-- **Effects add bindings and recordings, and do nothing else.** -/
theorem applyAll_eq (es : List (Effect τ ν)) :
    c.applyAll es = ⟨c.position, (es.filterMap (·.binding?)).reverse ++ c.bindings,
      c.recorded ++ es.filterMap (·.recording?), c.debug⟩ := by
  induction es generalizing c with
  | nil => exact congrArg (Context.mk _ _ · _) (List.append_nil _).symm
  | cons e es ih =>
      rw [applyAll, List.foldl_cons, ← applyAll, ih]
      cases e <;> simp [apply, record, Effect.binding?, Effect.recording?]

/-- Where the cursor stands has no part in effects. -/
theorem applyAll_moveTo (es : List (Effect τ ν)) (i : ℕ) :
    (c.moveTo i).applyAll es = (c.applyAll es).moveTo i := by
  rw [applyAll_eq, applyAll_eq]
  rfl

/-- What a slot is bound to afterwards, it was bound to before or by one of the effects. -/
theorem value?_applyAll_eq_some {es : List (Effect τ ν)} {s : Slot} {v : ν}
    (h : (c.applyAll es).value? s = some v) :
    c.value? s = some v ∨ ∃ s' : Slot, s'.id = s.id ∧ .bind s' v ∈ es := by
  induction es generalizing c with
  | nil => exact .inl h
  | cons e es ih =>
      rcases ih _ h with h | ⟨s', same, hs'⟩
      · cases e with
        | record t => exact .inl h
        | bind s' v' =>
            by_cases same : s.id = s'.id
            · rw [apply, value?, List.lookup_cons, beq_iff_eq.2 same] at h
              cases h
              exact .inr ⟨s', same.symm, List.mem_cons_self⟩
            · rw [apply, value?, List.lookup_cons, beq_eq_false_iff_ne.2 same] at h
              exact .inl h
      · exact .inr ⟨s', same, List.mem_cons_of_mem _ hs'⟩

end Context

/-- What the formula makes of the token `t` in a context: nothing if it rejects it, otherwise the effects with which
it accepts it. -/
inductive Formula.Verdict [BEq ν] (t : τ) :
    Formula τ ν → Context τ ν → Option (List (Effect τ ν)) → Prop where
  | always {c} : Verdict t .always c (some [])
  | never {c} : Verdict t .never c none
  | accepted {p c} (h : p t = true) : Verdict t (.satisfying p) c (some [])
  | rejected {p c} (h : p t = false) : Verdict t (.satisfying p) c none
  | recorded {c} : Verdict t .recording c (some [.record t])
  | passed {label c} : Verdict t (.checkpoint label) c (some [])
  | captured {s extract v c} (extracted : extract t = some v) (unbound : c.isBound s = false) :
    Verdict t (.capture s extract) c (some [.bind s v])
  | nothingToCapture {s extract c} (h : extract t = none) : Verdict t (.capture s extract) c none
  | boundAlready {s extract c} (h : c.isBound s = true) : Verdict t (.capture s extract) c none
  | same {s extract v w c} (bound : c.value? s = some v) (extracted : extract t = some w)
    (h : (v == w) = true) : Verdict t (.equalsBound s extract) c (some [])
  | different {s extract v w c} (bound : c.value? s = some v) (extracted : extract t = some w)
    (h : (v == w) = false) : Verdict t (.equalsBound s extract) c none
  | nothingToCompare {s extract c} (h : extract t = none) : Verdict t (.equalsBound s extract) c none
  | unbound {s extract c} (h : c.value? s = none) : Verdict t (.equalsBound s extract) c none
  /-- The second operand finds what the first has done. -/
  | both {f g c es fs} (first : Verdict t f c (some es)) (second : Verdict t g (c.applyAll es) (some fs)) :
    Verdict t (.and f g) c (some (es ++ fs))
  | firstRejects {f g c} (first : Verdict t f c none) : Verdict t (.and f g) c none
  | secondRejects {f g c es} (first : Verdict t f c (some es)) (second : Verdict t g (c.applyAll es) none) :
    Verdict t (.and f g) c none
  | first {f g c es} (h : Verdict t f c (some es)) : Verdict t (.or f g) c (some es)
  /-- The second operand starts where the first has started, and decides alone. -/
  | second {f g c verdict} (rejected : Verdict t f c none) (h : Verdict t g c verdict) :
    Verdict t (.or f g) c verdict
  | denied {f c es} (h : Verdict t f c (some es)) : Verdict t (.negate f) c none
  | negated {f c} (h : Verdict t f c none) : Verdict t (.negate f) c (some [])

/-- The captures of a formula that can bind something; under a negation none can. -/
def Formula.captures : Formula τ ν → List (Slot × (τ → Option ν))
  | capture s extract => [(s, extract)]
  | and f g => f.captures ++ g.captures
  | or f g => f.captures ++ g.captures
  | always | never | satisfying _ | recording | checkpoint _ | equalsBound _ _ | negate _ => []

/-- The effect is that of a capture of the formula, or a recording, on the token `t`. -/
def Effect.StemsFrom (f : Formula τ ν) (t : τ) : Effect τ ν → Prop
  | bind s v => ∃ extract, (s, extract) ∈ f.captures ∧ extract t = some v
  | record t' => t' = t

/-- What an operand captures, the formula captures. -/
theorem Effect.StemsFrom.mono {f g : Formula τ ν} {t : τ} {e : Effect τ ν} (h : e.StemsFrom f t)
    (hfg : f.captures ⊆ g.captures) : e.StemsFrom g t := by
  cases e with
  | bind s v =>
      obtain ⟨extract, hs, hv⟩ := h
      exact ⟨extract, hfg hs, hv⟩
  | record t' => exact h

/-! ### Verdicts and tests

The rules of `Formula.Verdict` are read from the outside in, and the test evaluates the same way, so both inclusions
are inductions with one case for each rule.
-/

namespace Formula

variable [BEq ν] {f : Formula τ ν} {c : Context τ ν} {t : τ}

/-- **The test of a formula carries out its verdict.** -/
theorem value_test_of_verdict {verdict : Option (List (Effect τ ν))} (h : f.Verdict t c verdict) :
    ((f.predicate .equalsBound).test c t).value = verdict.map c.applyAll := by
  induction h with
  | always | never | recorded | passed => rfl
  | accepted h => exact if_pos h
  | rejected h => exact if_neg (by rw [h]; exact Bool.false_ne_true)
  | captured extracted unbound =>
      rw [predicate, Predicate.value_test_capture, extracted, Option.bind_some, Context.store, unbound]
      rfl
  | nothingToCapture h => rw [predicate, Predicate.value_test_capture, h]; rfl
  | @boundAlready s extract c h =>
      have full : c.store s = fun _ => none := funext fun v => if_pos h
      rw [predicate, Predicate.value_test_capture, full]
      cases extract t <;> rfl
  | same bound extracted h =>
      rw [predicate, Predicate.value_test_equalsBound, bound, Option.bind_some, extracted, Option.bind_some,
        if_pos h]
      rfl
  | different bound extracted h =>
      rw [predicate, Predicate.value_test_equalsBound, bound, Option.bind_some, extracted, Option.bind_some,
        if_neg (Bool.eq_false_iff.1 h)]
      rfl
  | @nothingToCompare s extract c h =>
      rw [predicate, Predicate.value_test_equalsBound, h]
      cases c.value? s <;> rfl
  | unbound h => rw [predicate, Predicate.value_test_equalsBound, h]; rfl
  | @both f g c es fs _ _ first second =>
      rw [predicate, Predicate.value_test_and, first, Option.map_some, Option.bind_some, second,
        Option.map_some, Option.map_some, Context.applyAll_append]
  | firstRejects _ first => rw [predicate, Predicate.value_test_and, first]; rfl
  | secondRejects _ _ first second =>
      rw [predicate, Predicate.value_test_and, first, Option.map_some, Option.bind_some, second]
      rfl
  | first _ h => rw [predicate, Predicate.value_test_or, h]; rfl
  | second _ _ rejected h =>
      rw [predicate, Predicate.value_test_or, rejected, Option.map_none, Option.none_or, h]
  | denied _ h => rw [predicate, Predicate.value_test_negate, h]; rfl
  | negated _ h => rw [predicate, Predicate.value_test_negate, h]; rfl

/-- There is a verdict on every token. -/
theorem exists_verdict (f : Formula τ ν) (c : Context τ ν) (t : τ) : ∃ verdict, f.Verdict t c verdict := by
  induction f generalizing c with
  | always => exact ⟨_, .always⟩
  | never => exact ⟨_, .never⟩
  | satisfying p =>
      cases h : p t with
      | true => exact ⟨_, .accepted h⟩
      | false => exact ⟨_, .rejected h⟩
  | recording => exact ⟨_, .recorded⟩
  | checkpoint label => exact ⟨_, .passed⟩
  | capture s extract =>
      cases hb : c.isBound s with
      | true => exact ⟨_, .boundAlready hb⟩
      | false =>
          cases he : extract t with
          | none => exact ⟨_, .nothingToCapture he⟩
          | some v => exact ⟨_, .captured he hb⟩
  | equalsBound s extract =>
      cases hb : c.value? s with
      | none => exact ⟨_, .unbound hb⟩
      | some v =>
          cases he : extract t with
          | none => exact ⟨_, .nothingToCompare he⟩
          | some w =>
              cases h : v == w with
              | true => exact ⟨_, .same hb he h⟩
              | false => exact ⟨_, .different hb he h⟩
  | and f g hf hg =>
      obtain ⟨_ | es, first⟩ := hf c
      · exact ⟨_, .firstRejects first⟩
      · obtain ⟨_ | fs, second⟩ := hg (c.applyAll es)
        · exact ⟨_, .secondRejects first second⟩
        · exact ⟨_, .both first second⟩
  | or f g hf hg =>
      obtain ⟨_ | es, first⟩ := hf c
      · obtain ⟨_, second⟩ := hg c
        exact ⟨_, .second first second⟩
      · exact ⟨_, .first first⟩
  | negate f hf =>
      obtain ⟨_ | es, h⟩ := hf c
      · exact ⟨_, .negated h⟩
      · exact ⟨_, .denied h⟩

/-- **A test that succeeds has accepted with some effects**, and leads where they lead. -/
theorem exists_verdict_of_test {d : Context τ ν}
    (h : ((f.predicate .equalsBound).test c t).value = some d) :
    ∃ es, f.Verdict t c (some es) ∧ d = c.applyAll es := by
  obtain ⟨verdict, hv⟩ := exists_verdict f c t
  rw [value_test_of_verdict hv] at h
  obtain ⟨es, rfl, rfl⟩ := Option.map_eq_some_iff.1 h
  exact ⟨es, hv, rfl⟩

/-- **What an accepting formula does stems from its captures, or is a recording of the token.** -/
theorem stemsFrom_of_verdict {es : List (Effect τ ν)} (h : f.Verdict t c (some es)) :
    ∀ e ∈ es, e.StemsFrom f t := by
  generalize hv : some es = verdict at h
  induction h generalizing es with
  | always | accepted | passed | same | negated =>
      cases hv
      exact fun e he => absurd he List.not_mem_nil
  | recorded =>
      cases hv
      intro e he
      rw [List.mem_singleton.1 he]
      exact rfl
  | captured extracted _ =>
      cases hv
      intro e he
      rw [List.mem_singleton.1 he]
      exact ⟨_, List.mem_singleton_self _, extracted⟩
  | both _ _ first second =>
      cases hv
      intro e he
      rcases List.mem_append.1 he with he | he
      · exact (first rfl e he).mono (List.subset_append_left _ _)
      · exact (second rfl e he).mono (List.subset_append_right _ _)
  | first _ h => exact fun e he => (h hv e he).mono (List.subset_append_left _ _)
  | second _ _ _ h => exact fun e he => (h hv e he).mono (List.subset_append_right _ _)
  | never | rejected | nothingToCapture | boundAlready | different | nothingToCompare | unbound | firstRejects
  | secondRejects | denied => cases hv

/-- **A slot that is bound stays bound to what it is bound to.** -/
theorem value?_of_verdict {es : List (Effect τ ν)} (h : f.Verdict t c (some es)) {s : Slot} {v : ν}
    (hs : c.value? s = some v) : (c.applyAll es).value? s = some v := by
  generalize hv : some es = verdict at h
  induction h generalizing es with
  | always | accepted | passed | same | negated | recorded =>
      cases hv
      exact hs
  | @captured s' _ v' c _ unbound =>
      cases hv
      have stored : c.store s' v' = some (c.applyAll [.bind s' v']) :=
        Context.store_eq_some_iff.2 ⟨unbound, rfl⟩
      have other : s.id ≠ s'.id := by
        intro same
        rw [Context.isBound, Context.value?, ← same, ← Context.value?, hs] at unbound
        cases unbound
      rw [Context.value?_store stored, if_neg other, hs]
  | both _ _ first second =>
      cases hv
      rw [Context.applyAll_append]
      exact second (first hs rfl) rfl
  | first _ h => exact h hs hv
  | second _ _ _ h => exact h hs hv
  | never | rejected | nothingToCapture | boundAlready | different | nothingToCompare | unbound | firstRejects
  | secondRejects | denied => cases hv

end Formula

end Sequence
end LoopPlumbing
