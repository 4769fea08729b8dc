/- # Tracing does not interfere

A match is traced if the flag of its context is set; the flag goes along with the context through every branch.
Predicates made of the vocabulary neither look at the flag nor touch it (`Formula.oblivious`), so a traced search
and a search that is not traced run alike: one step of the engine after the other they go on from contexts that
differ in the flag alone, and the traced one reports the same and, here and there, that a token was tested.

This is said of a search as a family, one run for each value of the flag (`TracesOnly`), which is closed under
what the engine does: going on from each context that was reached (`TracesOnly.gather`), joining the contexts of
two runs (`TracesOnly.append`), reordering them or moving their cursors (`TracesOnly.map`).

What remains when the reports of tested tokens are deleted is what is reported without a trace.  For that it must
be known where the reports of a search that is not traced come from: from the predicate that decides what is passed
over, which is any predicate at all, and from the checkpoints of the pattern (`Heard`).  Neither is matching
itself, so nothing of theirs is deleted, even where a predicate words a report as matching does.
-/

import LoopPlumbing.Event
import LoopPlumbing.Proofs.Sequence.Check
import LoopPlumbing.Proofs.Sequence.Formula
import LoopPlumbing.Proofs.Sequence.Simulation

namespace LoopPlumbing
namespace Sequence

variable {τ ν : Type}

/-! ### What tracing puts in -/

/-- Whether matching reports that it tested a token.  A predicate that says so of itself is not meant. -/
def Event.isTokenTest : Event τ → Bool
  | tokenTested _ _ _ => true
  | checkpoint _ _ _ | reported _ => false

/-- Whether a predicate reports a checkpoint. -/
def Event.isCheckpoint : Event τ → Bool
  | checkpoint _ _ _ => true
  | tokenTested _ _ _ | reported _ => false

/-- How a tested token is worded. -/
theorem Event.message_of_isTokenTest {e : Event τ} (h : e.isTokenTest = true) : e.message = "sequence token" := by
  cases e with
  | tokenTested position t matched => rfl
  | checkpoint label position t | reported e => cases h

/-- How a checkpoint is worded. -/
theorem Event.message_of_isCheckpoint {e : Event τ} (h : e.isCheckpoint = true) :
    e.message = "sequence match" := by
  cases e with
  | checkpoint label position t => rfl
  | tokenTested position t matched | reported e => cases h

/-- The second list of events is the first with reports of tested tokens put in. -/
inductive Traced : List (Event τ) → List (Event τ) → Prop where
  | nil : Traced [] []
  | cons {es fs : List (Event τ)} {e : Event τ} (rest : Traced es fs) : Traced (e :: es) (e :: fs)
  | insert {es fs : List (Event τ)} {e : Event τ} (test : e.isTokenTest = true) (rest : Traced es fs) :
    Traced es (e :: fs)

namespace Traced

variable {es es' fs fs' : List (Event τ)}

/-- Nothing need be put in. -/
theorem refl : ∀ es : List (Event τ), Traced es es
  | [] => .nil
  | _ :: es => .cons (refl es)

/-- Traces of two runs, one after the other. -/
theorem append (h : Traced es fs) (h' : Traced es' fs') : Traced (es ++ es') (fs ++ fs') := by
  induction h with
  | nil => exact h'
  | cons _ ih => exact .cons ih
  | insert test _ ih => exact .insert test ih

/-- Traces of the runs from each element of a list. -/
theorem flatMap {α : Type} {f g : α → List (Event τ)} (h : ∀ a, Traced (f a) (g a)) (l : List α) :
    Traced (l.flatMap f) (l.flatMap g) := by
  induction l with
  | nil => exact .nil
  | cons a l ih =>
      rw [List.flatMap_cons, List.flatMap_cons]
      exact (h a).append ih

/-- **With the reports of tested tokens deleted, nothing was put in**, whatever else is deleted. -/
theorem filter_eq {keep : Event τ → Bool} (deletes : ∀ e : Event τ, e.isTokenTest = true → keep e = false)
    (h : Traced es fs) : fs.filter keep = es.filter keep := by
  induction h with
  | nil => rfl
  | cons _ ih => rw [List.filter_cons, List.filter_cons, ih]
  | insert test _ ih => rw [List.filter_cons_of_neg (by simp [deletes _ test]), ih]

end Traced

/-! ### What is heard without a trace -/

/-- What a search reports that is not traced: what the tests of what is passed over report, and the checkpoints of
its predicates. -/
inductive Heard (ignores : Predicate τ ν) : Event τ → Prop where
  | passing {t : τ} {e : Event τ} (h : e ∈ (isIgnored ignores t).events) : Heard ignores e
  | checkpoint {e : Event τ} (h : e.isCheckpoint = true) : Heard ignores (.reported e)

/-- The tests of what is passed over report nothing in the words in which matching reports a tested token. -/
def IgnoresSilently (ignores : Predicate τ ν) : Prop :=
  ∀ t, ∀ e ∈ (isIgnored ignores t).events, e.message ≠ "sequence token"

namespace Heard

variable {ignores : Predicate τ ν} {e : Event τ}

/-- **Matching itself is not heard**, whatever the predicates report. -/
theorem isTokenTest_eq_false (h : Heard ignores e) : e.isTokenTest = false := by
  cases h with
  | passing h =>
      rw [isIgnored, Logged.events_map, events_runTest] at h
      obtain ⟨e', -, rfl⟩ := List.mem_map.1 h
      rfl
  | checkpoint => rfl

/-- Unless what is passed over is reported in the same words, none of the words is heard. -/
theorem message_ne (h : Heard ignores e) (quiet : IgnoresSilently ignores) : e.message ≠ "sequence token" := by
  cases h with
  | passing h => exact quiet _ e h
  | @checkpoint e' h =>
      rw [Event.message, Event.message_of_isCheckpoint h]
      decide

end Heard

/-! ### Runs with the flag and without -/

section Runs

/-- Runs that differ by the flag that they start with: the contexts that are listed differ in the flag alone, and
the traced run reports what the other one reports and the tokens that it tests.  Of what the other one reports it is
known where it comes from. -/
structure TracesOnly (ignores : Predicate τ ν) (run : Bool → Logged (Event τ) (List (Context τ ν))) :
    Prop where
  value : ∃ found : List (Context τ ν), ∀ b, (run b).value = found.map (·.withDebug b)
  events : ∀ b, Traced (run false).events (run b).events
  heard : ∀ e ∈ (run false).events, Heard ignores e

namespace TracesOnly

variable {ignores : Predicate τ ν} {run run' : Bool → Logged (Event τ) (List (Context τ ν))}

/-- The contexts of a run in terms of those of the run that is not traced. -/
theorem value_eq (h : TracesOnly ignores run) (b : Bool) :
    (run b).value = (run false).value.map (·.withDebug b) := by
  obtain ⟨found, hfound⟩ := h.value
  rw [hfound, hfound, List.map_map]
  rfl

/-- What is known beforehand, and heard of by nobody. -/
theorem pure (found : List (Context τ ν)) :
    TracesOnly ignores fun b => Pure.pure (found.map (·.withDebug b)) where
  value := ⟨found, fun _ => rfl⟩
  events _ := .nil
  heard _ he := absurd he List.not_mem_nil

/-- The contexts are reordered, dropped or moved with no regard to the flag. -/
theorem map (h : TracesOnly ignores run) {f : Bool → List (Context τ ν) → List (Context τ ν)}
    (g : List (Context τ ν) → List (Context τ ν))
    (hf : ∀ b cs, f b (cs.map (·.withDebug b)) = (g cs).map (·.withDebug b)) :
    TracesOnly ignores fun b => f b <$> run b where
  value := by
    obtain ⟨found, hfound⟩ := h.value
    refine ⟨g found, fun b => ?_⟩
    rw [Logged.value_map, hfound, hf]
  events b := by
    rw [Logged.events_map, Logged.events_map]
    exact h.events b
  heard := by
    rw [Logged.events_map]
    exact h.heard

/-- Two runs one after the other. -/
theorem append (h : TracesOnly ignores run) (h' : TracesOnly ignores run') :
    TracesOnly ignores fun b => do
      let first ← run b
      let second ← run' b
      Pure.pure (first ++ second) where
  value := by
    obtain ⟨found, hfound⟩ := h.value
    obtain ⟨found', hfound'⟩ := h'.value
    refine ⟨found ++ found', fun b => ?_⟩
    rw [Logged.value_bind, Logged.value_bind, Logged.value_pure, hfound, hfound', List.map_append]
  events b := by
    simp only [Logged.events_bind, Logged.events_pure, List.append_nil]
    exact (h.events b).append (h'.events b)
  heard e he := by
    simp only [Logged.events_bind, Logged.events_pure, List.append_nil] at he
    exact (List.mem_append.1 he).elim (h.heard e) (h'.heard e)

/-- A run, and then another from each element of a list. -/
theorem gatherList {α : Type} {next : Bool → α → Logged (Event τ) (List (Context τ ν))}
    (hnext : ∀ a, TracesOnly ignores fun b => next b a) (as : List α) :
    TracesOnly ignores fun b => Logged.gather as (next b) where
  value := by
    refine ⟨as.flatMap fun a => (next false a).value, fun b => ?_⟩
    rw [Logged.value_gather, List.map_flatMap]
    exact List.flatMap_congr fun a _ => (hnext a).value_eq b
  events b := by
    rw [Logged.events_gather, Logged.events_gather]
    exact Traced.flatMap (fun a => (hnext a).events b) as
  heard e he := by
    rw [Logged.events_gather] at he
    obtain ⟨a, -, he⟩ := List.mem_flatMap.1 he
    exact (hnext a).heard e he

/-- **Going on from each context that was reached.** -/
theorem gather (h : TracesOnly ignores run) {next : Context τ ν → Logged (Event τ) (List (Context τ ν))}
    (hnext : ∀ c : Context τ ν, TracesOnly ignores fun b => next (c.withDebug b)) :
    TracesOnly ignores fun b => (do
      let reached ← run b
      Logged.gather reached next) := by
  obtain ⟨found, hfound⟩ := h.value
  -- The contexts reached are the same but for the flag, so the runs go on in step.
  have onward : ∀ b, Logged.gather (run b).value next =
      Logged.gather found fun c => next (c.withDebug b) := fun b => by
    rw [hfound b, Logged.gather_map]
    rfl
  have inStep : TracesOnly ignores fun b => Logged.gather found fun c => next (c.withDebug b) :=
    gatherList hnext found
  refine ⟨?_, fun b => ?_, fun e he => ?_⟩
  · obtain ⟨ends, hends⟩ := inStep.value
    refine ⟨ends, fun b => ?_⟩
    rw [Logged.value_bind, onward, hends]
  · rw [Logged.events_bind, Logged.events_bind, onward, onward]
    exact (h.events b).append (inStep.events b)
  · rw [Logged.events_bind, onward] at he
    exact (List.mem_append.1 he).elim (h.heard e) (inStep.heard e)

/-- Something first that has no regard to the flag. -/
theorem behind {α : Type} {x : Logged (Event τ) α} (hx : ∀ e ∈ x.events, Heard ignores e)
    {next : Bool → α → Logged (Event τ) (List (Context τ ν))}
    (hnext : TracesOnly ignores fun b => next b x.value) : TracesOnly ignores fun b => x >>= next b where
  value := hnext.value
  events b := (Traced.refl _).append (hnext.events b)
  heard e he := (List.mem_append.1 he).elim (hx e) (hnext.heard e)

end TracesOnly

end Runs

/-! ### Predicates without regard to the flag -/

/-- A predicate that neither looks at the flag nor touches it, and reports checkpoints only. -/
structure Predicate.Oblivious (p : Predicate τ ν) : Prop where
  test_withDebug : ∀ (b : Bool) (c : Context τ ν) (t : τ),
    p.test (c.withDebug b) t = Option.map (·.withDebug b) <$> p.test c t
  checkpoints : ∀ (c : Context τ ν) (t : τ), ∀ e ∈ (p.test c t).events, e.isCheckpoint = true

namespace Predicate.Oblivious

/-- What reports nothing at all. -/
theorem ofStep {step : Context τ ν → τ → Option (Context τ ν)}
    (h : ∀ (b : Bool) (c : Context τ ν) (t : τ), step (c.withDebug b) t = (step c t).map (·.withDebug b)) :
    (Predicate.ofStep step).Oblivious where
  test_withDebug b c t := congrArg Pure.pure (h b c t)
  checkpoints _ _ _ he := absurd he List.not_mem_nil

theorem satisfying (p : τ → Bool) : (Predicate.satisfying p : Predicate τ ν).Oblivious :=
  ofStep fun b c t => by cases p t <;> rfl

theorem always : (Predicate.always : Predicate τ ν).Oblivious := ofStep fun _ _ _ => rfl

theorem never : (Predicate.never : Predicate τ ν).Oblivious := ofStep fun _ _ _ => rfl

theorem recording : (Predicate.recording : Predicate τ ν).Oblivious := ofStep fun _ _ _ => rfl

theorem checkpoint (label : String) : (Predicate.checkpoint label : Predicate τ ν).Oblivious where
  test_withDebug _ _ _ := rfl
  checkpoints c t e he := by
    rw [List.mem_singleton.1 he]
    rfl

variable {p q : Predicate τ ν}

theorem requiring (hp : p.Oblivious) (s : Slot) : (p.requiring s).Oblivious :=
  ⟨hp.test_withDebug, hp.checkpoints⟩

theorem binding (hp : p.Oblivious) (s : Slot) : (p.binding s).Oblivious :=
  ⟨hp.test_withDebug, hp.checkpoints⟩

/-- Binding a slot has no regard to the flag. -/
theorem store_withDebug (b : Bool) (c : Context τ ν) (s : Slot) (v : ν) :
    (c.withDebug b).store s v = (c.store s v).map (·.withDebug b) := by
  have same : (c.withDebug b).isBound s = c.isBound s := rfl
  unfold Context.store
  rw [same]
  cases c.isBound s <;> rfl

theorem capture (s : Slot) (extract : τ → Option ν) : (Predicate.capture s extract).Oblivious := by
  have bound : ∀ (b : Bool) (c : Context τ ν) (t : τ), (extract t).bind ((c.withDebug b).store s) =
      ((extract t).bind (c.store s)).map (·.withDebug b) := by
    intro b c t
    cases extract t with
    | none => rfl
    | some v => exact store_withDebug b c s v
  exact (ofStep bound).binding s

theorem equalsBound [BEq ν] (s : Slot) (extract : τ → Option ν) :
    (Predicate.equalsBound s extract).Oblivious := by
  have compared : ∀ (b : Bool) (c : Context τ ν) (t : τ),
      (((c.withDebug b).value? s).bind fun bound => (extract t).bind fun value =>
        if bound == value then some (c.withDebug b) else none) =
      ((c.value? s).bind fun bound => (extract t).bind fun value =>
        if bound == value then some c else none).map (·.withDebug b) := by
    intro b c t
    have same : (c.withDebug b).value? s = c.value? s := rfl
    rw [same]
    cases c.value? s with
    | none => rfl
    | some bound =>
        cases extract t with
        | none => rfl
        | some value =>
            simp only [Option.bind_some]
            split <;> rfl
  exact (ofStep compared).requiring s

/-- One test decides between two others; the second goes on from the context that the first leaves. -/
theorem branch {r missed hit : Predicate τ ν} (hp : p.Oblivious) (hmissed : missed.Oblivious)
    (hhit : hit.Oblivious)
    (test : ∀ c t, r.test c t = (p.test c t >>= fun
      | none => missed.test c t
      | some d => hit.test d t)) : r.Oblivious where
  test_withDebug b c t := by
    simp only [test, hp.test_withDebug b c t, bind_map_left, map_bind]
    refine Logged.bind_congr_value ?_
    cases (p.test c t).value with
    | none => exact hmissed.test_withDebug b c t
    | some d => exact hhit.test_withDebug b d t
  checkpoints c t e he := by
    rw [test, Logged.events_bind] at he
    rcases List.mem_append.1 he with he | he
    · exact hp.checkpoints c t e he
    · cases h : (p.test c t).value with
      | none =>
          rw [h] at he
          exact hmissed.checkpoints c t e he
      | some d =>
          rw [h] at he
          exact hhit.checkpoints d t e he

theorem and (hp : p.Oblivious) (hq : q.Oblivious) : (p.and q).Oblivious :=
  hp.branch never hq fun _ _ => rfl

theorem or (hp : p.Oblivious) (hq : q.Oblivious) : (p.or q).Oblivious :=
  hp.branch hq always fun _ _ => rfl

theorem negate (hp : p.Oblivious) : p.negate.Oblivious :=
  hp.branch always never fun _ _ => rfl

/-- Such a predicate may decide what is passed over: its checkpoints are worded as such. -/
theorem ignoresSilently (hp : p.Oblivious) : IgnoresSilently p := by
  intro t e he
  rw [isIgnored, Logged.events_map, events_runTest] at he
  obtain ⟨e', he', rfl⟩ := List.mem_map.1 he
  rw [Event.message, Event.message_of_isCheckpoint (hp.checkpoints _ t e' he')]
  decide

end Predicate.Oblivious

/-- **No formula has regard to the flag.** -/
theorem Formula.oblivious [BEq ν] (f : Formula τ ν) : (f.predicate .equalsBound).Oblivious := by
  induction f with
  | always => exact .always
  | never => exact .never
  | satisfying p => exact .satisfying p
  | recording => exact .recording
  | checkpoint label => exact .checkpoint label
  | capture s extract => exact .capture s extract
  | equalsBound s extract => exact .equalsBound s extract
  | and f g hf hg => exact hf.and hg
  | or f g hf hg => exact hf.or hg
  | negate f hf => exact hf.negate

/-- No token of a grammar has regard to the flag, since formulas are made of such predicates. -/
theorem Grammar.oblivious [BEq ν] (g : Grammar τ ν) :
    ∀ p ∈ (g.pattern .equalsBound).predicates, p.Oblivious := by
  induction g with
  | token f =>
      intro p hp
      rw [List.mem_singleton.1 hp]
      exact f.oblivious
  | seq a b iha ihb => exact fun p hp => (List.mem_append.1 hp).elim (iha p) (ihb p)
  | alt a b iha ihb => exact fun p hp => (List.mem_append.1 hp).elim (iha p) (ihb p)
  | star a ih => exact ih

/-! ### The engine, step by step -/

section Engine

variable {ignores : Predicate τ ν} {stream : List τ}

/-- On the way to the next token, only tests of what is passed over are heard. -/
theorem heard_skipIgnored (stream : List τ) (position : ℕ) :
    ∀ e ∈ (skipIgnored ignores stream position).events, Heard ignores e := by
  rw [skipIgnored, Logged.events_map]
  induction stream.drop position with
  | nil => exact fun e he => absurd he List.not_mem_nil
  | cons t ts ih =>
      intro e he
      rw [leadingIgnored, Logged.events_bind] at he
      rcases List.mem_append.1 he with he | he
      · exact .passing he
      · split at he
        · rw [Logged.events_map] at he
          exact ih e he
        · cases he

/-- A token is tested alike, and the traced run reports the test. -/
theorem tracesOnly_tokenEnds {p : Predicate τ ν} (hp : p.Oblivious) (c : Context τ ν) :
    TracesOnly ignores fun b => tokenEnds ignores stream p (c.withDebug b) := by
  refine TracesOnly.behind (heard_skipIgnored stream c.position) ?_
  generalize (skipIgnored ignores stream c.position).value = position
  cases stream[position]? with
  | none => exact .pure []
  | some t =>
      have test : ∀ b, p.test ((c.withDebug b).moveTo position) t =
          Option.map (·.withDebug b) <$> p.test (c.moveTo position) t :=
        fun b => hp.test_withDebug b (c.moveTo position) t
      refine ⟨⟨((p.test (c.moveTo position) t).value.map (·.moveTo (position + 1))).toList, fun b => ?_⟩,
        fun b => ?_, fun e he => ?_⟩
      · simp only [runTest, test, Logged.value_bind, Logged.value_mapEvents, Logged.value_map, Logged.value_pure]
        cases (p.test (c.moveTo position) t).value <;> rfl
      · simp only [runTest, test, Logged.events_bind, Logged.events_mapEvents, Logged.events_map,
          Logged.events_emitIf, Logged.events_pure, List.append_nil]
        refine (Traced.refl _).append ?_
        cases b with
        | false => exact .refl _
        | true => exact .insert rfl .nil
      · simp only [runTest, test, Logged.events_bind, Logged.events_mapEvents, Logged.events_map,
          Logged.events_emitIf, Logged.events_pure, List.append_nil] at he
        rcases List.mem_append.1 he with he | he
        · obtain ⟨e', he', rfl⟩ := List.mem_map.1 he
          exact .checkpoint (hp.checkpoints _ t e' he')
        · cases he

/-- Rounds go on from the same contexts, as often. -/
theorem tracesOnly_rounds {body : Context τ ν → Logged (Event τ) (List (Context τ ν))}
    (hbody : ∀ c : Context τ ν, TracesOnly ignores fun b => body (c.withDebug b)) (n : ℕ)
    (c : Context τ ν) : TracesOnly ignores fun b => rounds body n (c.withDebug b) := by
  induction n generalizing c with
  | zero => exact .pure [c]
  | succ n ih =>
      have beyond : ∀ b (cs : List (Context τ ν)), advances (c.withDebug b) (cs.map (·.withDebug b)) =
          (advances c cs).map (·.withDebug b) := by
        intro b cs
        rw [advances, advances, List.filter_map, List.map_reverse]
        rfl
      have onward := ((hbody c).map (advances c) beyond).gather ih
      have listed := onward.map (f := fun b => (c.withDebug b :: ·)) (c :: ·) fun _ _ => rfl
      simpa only [rounds, bind_map_left, map_bind] using listed

/-- **A pattern has no regard to the flag if its predicates have none.** -/
theorem tracesOnly_ends {q : Pattern τ ν} (hq : ∀ p ∈ q.predicates, p.Oblivious) (c : Context τ ν) :
    TracesOnly ignores fun b => q.ends ignores stream (c.withDebug b) := by
  induction q generalizing c with
  | token p => exact tracesOnly_tokenEnds (hq p List.mem_cons_self) c
  | seq a b iha ihb =>
      exact (iha (fun p hp => hq p (List.mem_append_left _ hp)) c).gather
        (ihb fun p hp => hq p (List.mem_append_right _ hp))
  | alt a b iha ihb =>
      exact (iha (fun p hp => hq p (List.mem_append_left _ hp)) c).append
        (ihb (fun p hp => hq p (List.mem_append_right _ hp)) c)
  | star a ih => exact tracesOnly_rounds (ih hq) (stream.length - c.position + 1) c

/-- A search that may start at every token. -/
theorem tracesOnly_scan {q : Pattern τ ν} (hq : ∀ p ∈ q.predicates, p.Oblivious) (c : Context τ ν) :
    TracesOnly ignores fun b => q.scan ignores stream (c.withDebug b) := by
  refine TracesOnly.gatherList (fun offset => ?_) _
  have found : TracesOnly ignores fun b =>
      (·.map (·.moveTo stream.length)) <$> q.ends ignores stream ((c.withDebug b).moveTo offset) :=
    (tracesOnly_ends hq (c.moveTo offset)).map (f := fun _ => (·.map (·.moveTo stream.length)))
      (·.map (·.moveTo stream.length)) fun b cs => by
        rw [List.map_map, List.map_map]
        rfl
  cases stream[offset]? with
  | none => exact found
  | some t =>
      refine TracesOnly.behind (fun e he => .passing he) ?_
      cases (isIgnored ignores t).value with
      | true => exact .pure []
      | false => exact found

/-- A search that spans the stream. -/
theorem tracesOnly_span {q : Pattern τ ν} (hq : ∀ p ∈ q.predicates, p.Oblivious) (c : Context τ ν) :
    TracesOnly ignores fun b => q.span ignores stream (c.withDebug b) := by
  refine TracesOnly.behind (heard_skipIgnored stream 0) ?_
  generalize (skipIgnored ignores stream 0).value = start
  refine (tracesOnly_ends hq (c.moveTo start)).gather fun d => ?_
  -- What is kept of a context depends on its cursor alone.
  let kept : Bool := (skipIgnored ignores stream d.position).value == stream.length
  refine ⟨⟨if kept then [d] else [], fun b => ?_⟩, fun b => ?_, fun e he => ?_⟩
  · change (if kept then [d.withDebug b] else []) = _
    cases kept <;> rfl
  · exact Traced.refl _
  · rw [Logged.events_map] at he
    exact heard_skipIgnored stream d.position e he

end Engine

/-! ### Matchers -/

/-- The matcher with tracing switched on or off. -/
def Matcher.withDebug (m : Matcher τ ν) (debug : Bool) : Matcher τ ν :=
  { m with options := { m.options with debug } }

/-- It does not matter whether the options or the context ask for a trace. -/
theorem contexts_withDebug (m : Matcher τ ν) (stream : List τ) (c : Context τ ν)
    (byOptions byContext : Bool) :
    (m.withDebug byOptions).contexts stream (c.withDebug byContext) =
      (m.withDebug false).contexts stream (c.withDebug (byOptions || byContext)) := by
  cases byOptions <;> rfl

/-- **A matcher has no regard to the flag if the predicates of its pattern have none.** -/
theorem tracesOnly_contexts {m : Matcher τ ν} (hm : ∀ p ∈ m.pattern.predicates, p.Oblivious)
    (stream : List τ) (c : Context τ ν) :
    TracesOnly m.options.ignores fun b => (m.withDebug false).contexts stream (c.withDebug b) := by
  unfold Matcher.contexts
  cases h : (m.withDebug false).options.scanAllOffsets with
  | true => exact tracesOnly_scan hm c
  | false => exact tracesOnly_span hm c

/-- **The trace is all that tracing adds.**  A search that the options or the context ask to trace lists the
contexts that it lists otherwise, but for their flags, and reports what it reports otherwise, with reports of
tested tokens put in.  With those deleted it reports the same, whatever is reported by the tests of what is passed
over; if these do not word a report as matching does, the reports to be deleted can be told by their wording. -/
theorem contexts_traced {m : Matcher τ ν} (hm : ∀ p ∈ m.pattern.predicates, p.Oblivious)
    (stream : List τ) (c : Context τ ν) (byOptions byContext : Bool) :
    ((m.withDebug byOptions).contexts stream (c.withDebug byContext)).value =
        ((m.withDebug false).contexts stream (c.withDebug false)).value.map
          (·.withDebug (byOptions || byContext)) ∧
      Traced ((m.withDebug false).contexts stream (c.withDebug false)).events
        ((m.withDebug byOptions).contexts stream (c.withDebug byContext)).events ∧
      ((m.withDebug byOptions).contexts stream (c.withDebug byContext)).events.filter (!·.isTokenTest) =
        ((m.withDebug false).contexts stream (c.withDebug false)).events ∧
      (IgnoresSilently m.options.ignores →
        ((m.withDebug byOptions).contexts stream (c.withDebug byContext)).events.filter
            (·.message ≠ "sequence token") =
          ((m.withDebug false).contexts stream (c.withDebug false)).events) := by
  have runs := tracesOnly_contexts hm stream c
  rw [contexts_withDebug]
  refine ⟨runs.value_eq _, runs.events _, ?_, fun quiet => ?_⟩
  · have deletes : ∀ e : Event τ, e.isTokenTest = true → (!e.isTokenTest) = false := fun e he => by rw [he]; rfl
    rw [(runs.events _).filter_eq deletes, List.filter_eq_self]
    intro e he
    rw [(runs.heard e he).isTokenTest_eq_false]
    rfl
  · have deletes : ∀ e : Event τ, e.isTokenTest = true → decide (e.message ≠ "sequence token") = false :=
      fun e he => decide_eq_false fun h => h (Event.message_of_isTokenTest he)
    rw [(runs.events _).filter_eq deletes, List.filter_eq_self]
    exact fun e he => decide_eq_true ((runs.heard e he).message_ne quiet)

end Sequence
end LoopPlumbing
