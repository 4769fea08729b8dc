/- # Calls on a stage

A stage is called in any order: it begins a class, intercepts candidates, finishes.  What a call gives back is
a function of the calls made before (`after`, `answer`), and what the next stage is called with is read off the
call and its reply (`Call.next`), so that one equation says what running one stage behind another does,
whichever the call (`handle_andThen`).

A call on a child of a pipeline leaves no trace of its own.  An `observed` child records each call under the
child's name before it answers, and answers as it did (`handle_observed`), so the calls that reach the
children can be read in the log of the pipeline (`callsIn`).

The state of a stage may be anything, so nothing is said about states but that the calls before lead to them.  This
suffices, since two runs with the same calls are in the same state.
-/

import LoopPlumbing.Pipeline

namespace LoopPlumbing
namespace Stage

open Bytecode (ClassBody)

variable {ε ι α : Type}

/-! ### Calls and what they give back -/

/-- One call on a stage. -/
inductive Call where
  | begin (c : ClassBody)
  | intercept (candidates : List Candidate)
  | finish

/-- What a call gives back. -/
inductive Reply where
  | done
  | candidates (result : Except Fault (List Candidate))

/-- The reply to a call, by what becomes of candidates. -/
def Call.reply (become : List Candidate → Except Fault (List Candidate)) : Call → Reply
  | .intercept candidates => .candidates (become candidates)
  | _ => .done

/-- What the next stage is called with, unless the reply is a fault. -/
def Call.next : Call → Reply → Option Call
  | .intercept _, .candidates result => result.toOption.map .intercept
  | call, _ => some call

/-- Makes one call. -/
def handle (a : Stage ε) : Call → a.State → Logged ε (a.State × Reply)
  | .begin c, s => (fun s => (s, .done)) <$> a.begin c s
  | .intercept candidates, s => (fun (s, result) => (s, .candidates result)) <$> a.intercept candidates s
  | .finish, s => (fun s => (s, .done)) <$> a.finish s

/-- The state after calls, the first call first. -/
def after (a : Stage ε) (past : List Call) : a.State :=
  past.foldl (fun s call => (a.handle call s).value.1) a.initial

/-- What candidates become after calls, or the fault. -/
def answer (a : Stage ε) (past : List Call) (candidates : List Candidate) :
    Except Fault (List Candidate) :=
  (a.intercept candidates (a.after past)).value.2

/-- What calls give back in order, and what is reported meanwhile. -/
def transcript (a : Stage ε) : List Call → a.State → List (Logged ε Reply)
  | [], _ => []
  | call :: calls, s =>
    let made := a.handle call s
    (Prod.snd <$> made) :: a.transcript calls made.value.1

/-! ### One stage ahead of others

A stage has candidates checked by the next one only if it does not fail itself, and it is guarded: it reports its
own fault.  Whether the call goes on is a matter of the reply alone.
-/

/-- One call more takes a stage from the state after the calls before to the next. -/
theorem after_concat (a : Stage ε) (past : List Call) (call : Call) :
    a.after (past ++ [call]) = (a.handle call (a.after past)).value.1 :=
  List.foldl_append

/-- What a stage gives back for a call is settled by the calls that it had before. -/
theorem reply_handle (a : Stage ε) (past : List Call) (call : Call) :
    (a.handle call (a.after past)).value.2 = call.reply (a.answer past) := by
  cases call <;> rfl

/-- **One stage behind another:** the second is called with what the first passes on, and left alone where
the first fails. -/
theorem handle_andThen (a b : Stage ε) (call : Call) (s : a.State) (t : b.State) :
    (a.andThen b).handle call (s, t) =
      (a.handle call s >>= fun first =>
        match call.next first.2 with
        | none => pure ((first.1, t), first.2)
        | some passed => (fun second => ((first.1, second.1), second.2)) <$> b.handle passed t) := by
  cases call with
  | begin c => exact Logged.ext rfl (by simp [handle, andThen, Call.next])
  | finish => exact Logged.ext rfl (by simp [handle, andThen, Call.next])
  | intercept candidates =>
      rcases h : a.intercept candidates s with ⟨⟨first, fault | passed⟩, events⟩
      · refine Logged.ext ?_ ?_ <;> simp [handle, andThen, Call.next, Except.toOption, h]
      · refine Logged.ext ?_ ?_ <;> simp [handle, andThen, Call.next, Except.toOption, h]

/-- What a guarded stage does after calls: what the stage does. -/
theorem value_handle_guarded (report : Event → ε) (a : Stage ε) (past : List Call) (call : Call) :
    ((a.guarded report).handle call (a.after past)).value =
      (a.after (past ++ [call]), call.reply (a.answer past)) := by
  have same : ((a.guarded report).handle call (a.after past)).value =
      (a.handle call (a.after past)).value := by
    cases call with
    | begin c => rfl
    | finish => rfl
    | intercept candidates =>
        rcases h : a.intercept candidates (a.after past) with ⟨⟨next, fault | passed⟩, events⟩
        · simp [handle, guarded, h]
        · simp [handle, guarded, h]
  rw [same, after_concat, ← reply_handle]

/-- **A guarded stage ahead of others:** what they give back together, and the state they are in then. -/
theorem value_handle_ahead (report : Event → ε) (a b : Stage ε) (past : List Call) (call : Call)
    (t : b.State) :
    (((a.guarded report).andThen b).handle call (a.after past, t)).value =
      match call.next (call.reply (a.answer past)) with
      | none => ((a.after (past ++ [call]), t), call.reply (a.answer past))
      | some passed =>
        ((a.after (past ++ [call]), (b.handle passed t).value.1), (b.handle passed t).value.2) := by
  refine (congrArg Logged.value ((a.guarded report).handle_andThen b call (a.after past) t)).trans ?_
  have first := value_handle_guarded report a past call
  rw [Logged.value_bind, first]
  cases call.next (call.reply (a.answer past)) with
  | none => rfl
  | some passed => rfl

/-- What they report. -/
theorem events_handle_ahead (report : Event → ε) (a b : Stage ε) (past : List Call) (call : Call)
    (t : b.State) :
    (((a.guarded report).andThen b).handle call (a.after past, t)).events =
      ((a.guarded report).handle call (a.after past)).events ++
        (call.next (call.reply (a.answer past))).elim [] fun passed => (b.handle passed t).events := by
  refine (congrArg Logged.events ((a.guarded report).handle_andThen b call (a.after past) t)).trans ?_
  have first := value_handle_guarded report a past call
  rw [Logged.events_bind, first]
  cases call.next (call.reply (a.answer past)) with
  | none => rfl
  | some passed => exact congrArg (_ ++ ·) (Logged.events_map _ _)

/-! ### Observed stages

To state which calls reach a stage, the calls are written into the log under a name.  The stage itself does not
notice.
-/

/-- Records each call under a name before the stage answers it. -/
def observed (i : ι) (a : Stage ε) : Stage (ε ⊕ ι × Call) where
  kind := a.kind
  State := a.State
  initial := a.initial
  begin c s := do
    Logged.emit (.inr (i, .begin c))
    (a.begin c s).mapEvents .inl
  intercept candidates s := do
    Logged.emit (.inr (i, .intercept candidates))
    (a.intercept candidates s).mapEvents .inl
  finish s := do
    Logged.emit (.inr (i, .finish))
    (a.finish s).mapEvents .inl

/-- An observed stage answers as it did, behind the record of the call. -/
theorem handle_observed (i : ι) (a : Stage ε) (call : Call) (s : a.State) :
    (a.observed i).handle call s =
      ⟨(a.handle call s).value, .inr (i, call) :: (a.handle call s).events.map .inl⟩ := by
  cases call <;> refine Logged.ext rfl ?_ <;> simp [handle, observed]

/-- Recording calls does not change the state that a stage is in after them. -/
theorem after_observed (i : ι) (a : Stage ε) (past : List Call) :
    (a.observed i).after past = a.after past := by
  have alike : (fun (s : a.State) call => ((a.observed i).handle call s).value.1) =
      fun s call => (a.handle call s).value.1 := by
    funext s call
    exact congrArg (fun x => x.value.1) (handle_observed i a call s)
  exact congrArg (fun f => past.foldl f a.initial) alike

/-- Recording calls does not change what a stage answers. -/
theorem answer_observed (i : ι) (a : Stage ε) : (a.observed i).answer = a.answer := by
  funext past candidates
  exact congrArg (fun s => (a.intercept candidates s).value.2) (after_observed i a past)

/-- An observed stage reports, ahead of others, the call and then what it reported. -/
theorem events_handle_observed_ahead (report : Event → ε) (i : ι) (a : Stage ε)
    (b : Stage (ε ⊕ ι × Call)) (past : List Call) (call : Call) (t : b.State) :
    ((((a.observed i).guarded (Sum.inl ∘ report)).andThen b).handle call
        ((a.observed i).after past, t)).events =
      (.inr (i, call) :: ((a.guarded report).handle call (a.after past)).events.map .inl) ++
        (call.next (call.reply (a.answer past))).elim [] fun passed => (b.handle passed t).events := by
  -- It does not matter whether the call is recorded in front of the guard or behind it.
  have swap : ∀ s : a.State, ((a.observed i).guarded (Sum.inl ∘ report)).handle call s =
      ((a.guarded report).observed i).handle call s := by
    intro s
    cases call with
    | begin c => rfl
    | finish => rfl
    | intercept candidates =>
        rcases h : a.intercept candidates s with ⟨⟨next, fault | passed⟩, events⟩
        · refine Logged.ext ?_ ?_ <;> simp [handle, guarded, observed, h]
        · refine Logged.ext ?_ ?_ <;> simp [handle, guarded, observed, h, apply_ite (List.map Sum.inl)]
  rw [events_handle_ahead, answer_observed, after_observed]
  refine congrArg (· ++ _) ((congrArg Logged.events (swap _)).trans ?_)
  exact congrArg Logged.events (handle_observed i (a.guarded report) call _)

/-- The calls recorded in a log, the first one first. -/
def callsIn (x : Logged (ε ⊕ ι × Call) α) : List (ι × Call) := x.events.filterMap Sum.getRight?

/-- The result, with the recorded calls deleted from the log. -/
def withoutCalls (x : Logged (ε ⊕ ι × Call) α) : Logged ε α := ⟨x.value, x.events.filterMap Sum.getLeft?⟩

/-- Of a call's log, the recorded call is all that is no report of the stage. -/
theorem filterMap_getRight?_recorded (x : ι × Call) (events : List ε) :
    (Sum.inr x :: events.map Sum.inl).filterMap Sum.getRight? = [x] := by
  simp [List.filterMap_map, Function.comp_def]

/-- Without the recorded call, a call's log is what the stage reported. -/
theorem filterMap_getLeft?_recorded (x : ι × Call) (events : List ε) :
    (Sum.inr x :: events.map Sum.inl).filterMap Sum.getLeft? = events := by
  simp [List.filterMap_cons, List.filterMap_map, Function.comp_def]

end Stage
end LoopPlumbing
