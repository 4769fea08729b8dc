/- # What a pipeline does

What the children of a line are called with is told here without states, from what each answers after the
calls it had before: beginning and finishing reach every child, and candidates go from child to child until
one fails (`handed`, `asked`, `replied`).  `relay` tells it for any number of calls in a row.

A pipeline does nothing else.  Its state after some calls is what each child is in after the calls that
reached it (`states`), and one more call takes it to the states of one call more, whatever the call and
whichever child fails on it (`value_handle_lineUp`); the calls that observed children record on the way are
those that the relay asks for (`events_handle_lineUp`).  Both are inductions along the line, with one equation
for a child ahead of the rest.

A child that fails leaves the children behind it without the call, and their states then differ from those of a run
in which it had not failed.  So the relay keeps the calls of each child apart (`grown`), and an equation that speaks
of one list of calls for all would be wrong.
-/

import LoopPlumbing.Proofs.Pipeline.Calls
import LoopPlumbing.Proofs.Pipeline.StableOrder

namespace LoopPlumbing
namespace Pipeline

open Stage (Call Reply callsIn withoutCalls)

variable {ε ι : Type}

/-! ### The relay -/

section Relay

variable (answer : ι → List Call → List Candidate → Except Fault (List Candidate)) (past : ι → List Call)

/-- What a line of children makes of candidates, each fed with what the one before returned, or the first
fault. -/
def handed (line : List ι) (candidates : List Candidate) : Except Fault (List Candidate) :=
  line.foldlM (fun passed i => answer i (past i) passed) candidates

/-- The children that a call reaches, each with what it is called with: all of them when it is not about
candidates, and otherwise those before which no child fails. -/
def asked (line : List ι) : Call → List (ι × Call)
  | .intercept candidates =>
    line.zipIdx.filterMap fun (i, k) =>
      (handed answer past (line.take k) candidates).toOption.map fun passed => (i, .intercept passed)
  | call => line.map fun i => (i, call)

/-- What a line of children gives back for a call. -/
def replied (line : List ι) (call : Call) : Reply := call.reply (handed answer past line)

/-- The calls that each child had, after some more. -/
def grown [DecidableEq ι] (made : List (ι × Call)) (i : ι) : List Call :=
  past i ++ (made.filter fun x => x.1 = i).map Prod.snd

/-- For calls in a row, the calls that reach the children and what is given back. -/
def relay [DecidableEq ι] (line : List ι) : (ι → List Call) → List Call → List (List (ι × Call) × Reply)
  | _, [] => []
  | past, call :: calls =>
    let made := asked answer past line call
    (made, replied answer past line call) :: relay line (grown past made) calls

/-- Candidates go to the first child, and what that one passes on goes to the others. -/
theorem handed_cons (i : ι) (line : List ι) (candidates : List Candidate) :
    handed answer past (i :: line) candidates =
      answer i (past i) candidates >>= handed answer past line :=
  List.foldlM_cons

/-- A call reaches the first child, and the others with what that one passes on. -/
theorem asked_cons (i : ι) (line : List ι) (call : Call) :
    asked answer past (i :: line) call =
      (i, call) :: (call.next (call.reply (answer i (past i)))).elim [] (asked answer past line) := by
  cases call with
  | begin c => rfl
  | finish => rfl
  | intercept candidates =>
      change (i, Call.intercept candidates) :: (line.zipIdx 1).filterMap _ = _
      rw [List.zipIdx_succ, List.filterMap_map]
      congr 1
      cases h : answer i (past i) candidates with
      | error fault =>
          have stopped (line : List ι) : handed answer past (i :: line) candidates = .error fault := by
            rw [handed_cons, h]
            rfl
          simp [Function.comp_def, stopped, Call.next, Call.reply, h, Except.toOption]
      | ok passed =>
          have goesOn (line : List ι) :
              handed answer past (i :: line) candidates = handed answer past line passed := by
            rw [handed_cons, h]
            rfl
          simp [Function.comp_def, goesOn, Call.next, Call.reply, h, Except.toOption, asked]

/-- What is given back comes from the first child if the call stops there, and otherwise from the others. -/
theorem replied_cons (i : ι) (line : List ι) (call : Call) :
    replied answer past (i :: line) call =
      (call.next (call.reply (answer i (past i)))).elim (call.reply (answer i (past i)))
        (replied answer past line) := by
  cases call with
  | begin c => rfl
  | finish => rfl
  | intercept candidates =>
      rw [replied, Call.reply, handed_cons]
      cases h : answer i (past i) candidates with
      | error fault => rw [Call.reply, h]; rfl
      | ok passed => rw [Call.reply, h]; rfl

/-- A call reaches children from the first on, without leaving one out. -/
theorem asked_prefix (line : List ι) (call : Call) :
    (asked answer past line call).map Prod.fst <+: line := by
  induction line generalizing call with
  | nil => cases call <;> exact List.nil_prefix
  | cons i line ih =>
      rw [asked_cons, List.map_cons, List.prefix_cons_inj]
      cases call.next (call.reply (answer i (past i))) with
      | none => exact List.nil_prefix
      | some passed => exact ih passed

/-- The first child that fails has its fault given back, and the call goes no further. -/
theorem stops_at_fault {front back : List ι} {i : ι} {candidates passed : List Candidate} {fault : Fault}
    (before : handed answer past front candidates = .ok passed)
    (fails : answer i (past i) passed = .error fault) :
    replied answer past (front ++ i :: back) (.intercept candidates) = .candidates (.error fault) ∧
      (asked answer past (front ++ i :: back) (.intercept candidates)).map Prod.fst = front ++ [i] := by
  induction front generalizing candidates with
  | nil =>
      obtain rfl : candidates = passed := Except.ok.inj before
      rw [List.nil_append, replied_cons, asked_cons, Call.reply, fails]
      exact ⟨rfl, rfl⟩
  | cons j front ih =>
      rw [handed_cons] at before
      cases h : answer j (past j) candidates with
      | error other =>
          rw [h] at before
          cases before
      | ok between =>
          rw [h] at before
          obtain ⟨given, made⟩ := ih before
          rw [List.cons_append, replied_cons, asked_cons, Call.reply, h]
          exact ⟨given, congrArg (j :: ·) made⟩

end Relay

/-! ### The line of children as a stage -/

section LineUp

variable (stage : ι → Stage ε) (report : Event → ε)

/-- A line of children as one stage. -/
def lineUp (line : List ι) : Stage ε :=
  line.foldr (fun i rest => ((stage i).guarded report).andThen rest) .idle

/-- The state of a line of children, each after the calls it had. -/
def states (past : ι → List Call) : (line : List ι) → (lineUp stage report line).State
  | [] => ()
  | i :: line => ((stage i).after (past i), states past line)

/-- The state of a line depends on the calls that the children in it had, and on no others. -/
theorem states_congr {past past' : ι → List Call} {line : List ι} (alike : ∀ i ∈ line, past i = past' i) :
    states stage report past line = states stage report past' line := by
  induction line with
  | nil => rfl
  | cons i line ih =>
      have first := alike i List.mem_cons_self
      have rest := ih fun j hj => alike j (List.mem_cons_of_mem i hj)
      exact Prod.ext (congrArg (stage i).after first) rest

/-- The first child has had one call more, and the rest what was made behind it. -/
theorem states_grown_cons [DecidableEq ι] (past : ι → List Call) {i : ι} {line : List ι} (hi : i ∉ line)
    (call : Call) (made : List (ι × Call)) (within : made.map Prod.fst <+: line) :
    states stage report (grown past ((i, call) :: made)) (i :: line) =
      ((stage i).after (past i ++ [call]), states stage report (grown past made) line) := by
  have first : grown past ((i, call) :: made) i = past i ++ [call] := by
    have none : made.filter (fun x => x.1 = i) = [] := by
      refine List.filter_eq_nil_iff.2 fun x hx => ?_
      have there : x.1 ∈ line := within.subset (List.mem_map_of_mem hx)
      simpa using ne_of_mem_of_not_mem there hi
    simp [grown, none]
  have rest : ∀ j ∈ line, grown past ((i, call) :: made) j = grown past made j := by
    intro j hj
    have other : i ≠ j := (ne_of_mem_of_not_mem hj hi).symm
    simp [grown, other]
  exact Prod.ext (congrArg (stage i).after first) (states_congr stage report rest)

/-- Before any call, each child is in the state after no calls. -/
theorem initial_lineUp (line : List ι) :
    (lineUp stage report line).initial = states stage report (fun _ => []) line := by
  induction line with
  | nil => rfl
  | cons i line ih => exact congrArg (Prod.mk _) ih

/-- **What one call reports along a line of observed children:** the calls that the relay asks for, and, with
those deleted, what it reports along the line as it is. -/
theorem events_handle_lineUp (child : ι → Stage ε) (line : List ι) (past : ι → List Call) (call : Call) :
    let events := ((lineUp (fun i => (child i).observed i) (Sum.inl ∘ report) line).handle call
      (states (fun i => (child i).observed i) (Sum.inl ∘ report) past line)).events
    events.filterMap Sum.getRight? = asked (fun i => (child i).answer) past line call ∧
      events.filterMap Sum.getLeft? =
        ((lineUp child report line).handle call (states child report past line)).events := by
  induction line generalizing call with
  | nil => cases call <;> exact ⟨rfl, rfl⟩
  | cons i line ih =>
      have plain := Stage.events_handle_ahead report (child i) (lineUp child report line) (past i) call
        (states child report past line)
      have recorded := Stage.events_handle_observed_ahead report i (child i)
        (lineUp (fun i => (child i).observed i) (Sum.inl ∘ report) line) (past i) call
        (states (fun i => (child i).observed i) (Sum.inl ∘ report) past line)
      constructor
      · refine (congrArg (List.filterMap Sum.getRight?) recorded).trans ?_
        rw [List.filterMap_append, Stage.filterMap_getRight?_recorded, asked_cons]
        cases call.next (call.reply ((child i).answer (past i))) with
        | none => rfl
        | some passed => exact congrArg ((i, call) :: ·) (ih passed).1
      · refine ((congrArg (List.filterMap Sum.getLeft?) recorded).trans ?_).trans plain.symm
        rw [List.filterMap_append, Stage.filterMap_getLeft?_recorded]
        cases call.next (call.reply ((child i).answer (past i))) with
        | none => rfl
        | some passed => exact congrArg (_ ++ ·) (ih passed).2

/-- **What one call does to a line of children.** -/
theorem value_handle_lineUp [DecidableEq ι] {line : List ι} (distinct : line.Nodup)
    (past : ι → List Call) (call : Call) :
    ((lineUp stage report line).handle call (states stage report past line)).value =
      (states stage report (grown past (asked (fun i => (stage i).answer) past line call)) line,
        replied (fun i => (stage i).answer) past line call) := by
  induction line generalizing call with
  | nil => cases call <;> rfl
  | cons i line ih =>
      obtain ⟨hi, distinct⟩ := List.nodup_cons.1 distinct
      have ahead := Stage.value_handle_ahead report (stage i) (lineUp stage report line) (past i) call
        (states stage report past line)
      refine ahead.trans ?_
      rw [asked_cons, replied_cons]
      cases call.next (call.reply ((stage i).answer (past i))) with
      | none =>
          have still : states stage report (grown past []) line = states stage report past line :=
            states_congr stage report fun j _ => List.append_nil (past j)
          rw [Option.elim_none, Option.elim_none,
            states_grown_cons stage report past hi call [] List.nil_prefix, still]
          rfl
      | some passed =>
          have reached := asked_prefix (fun i => (stage i).answer) past line passed
          rw [Option.elim_some, Option.elim_some, states_grown_cons stage report past hi call _ reached]
          simp only [ih distinct passed]
          rfl

end LineUp

/-! ### Runs -/

section Runs

variable (child : ι → Stage ε) (report : Event → ε)

/-- What a line of children gives back for calls in a row. -/
theorem replies_lineUp [DecidableEq ι] {line : List ι} (distinct : line.Nodup) (past : ι → List Call)
    (calls : List Call) :
    ((lineUp child report line).transcript calls (states child report past line)).map (·.value) =
      (relay (fun i => (child i).answer) line past calls).map Prod.snd := by
  induction calls generalizing past with
  | nil => rfl
  | cons call calls ih =>
      have one := value_handle_lineUp child report distinct past call
      rw [Stage.transcript, relay, List.map_cons, List.map_cons, Logged.value_map, one, ih]

/-- **Observed children:** the calls that reach them, and, with those deleted from the log, the run of the
children as they are. -/
theorem recorded_lineUp [DecidableEq ι] {line : List ι} (distinct : line.Nodup) (past : ι → List Call)
    (calls : List Call) :
    let recorded := (lineUp (fun i => (child i).observed i) (Sum.inl ∘ report) line).transcript calls
      (states (fun i => (child i).observed i) (Sum.inl ∘ report) past line)
    recorded.map callsIn = (relay (fun i => (child i).answer) line past calls).map Prod.fst ∧
      recorded.map withoutCalls =
        (lineUp child report line).transcript calls (states child report past line) := by
  induction calls generalizing past with
  | nil => exact ⟨rfl, rfl⟩
  | cons call calls ih =>
      have plain := value_handle_lineUp child report distinct past call
      have one := value_handle_lineUp (fun i => (child i).observed i) (Sum.inl ∘ report) distinct past call
      simp only [Stage.answer_observed] at one
      obtain ⟨made, reported⟩ := events_handle_lineUp report child line past call
      obtain ⟨rest, restReported⟩ := ih (grown past (asked (fun i => (child i).answer) past line call))
      simp only [Stage.transcript, relay, List.map_cons, one, plain]
      constructor
      · refine List.cons_eq_cons.2 ⟨?_, rest⟩
        rw [callsIn, Logged.events_map, made]
      · refine List.cons_eq_cons.2 ⟨Logged.ext ?_ ?_, restReported⟩
        · rw [withoutCalls, Logged.value_map, Logged.value_map, one, plain]
        · rw [withoutCalls, Logged.events_map, Logged.events_map, reported]

/-- What a pipeline of children gives back for calls in a row, and what is reported meanwhile. -/
def served (given : List ι) (calls : List Call) : List (Logged ε Reply) :=
  let stage := (ofStages (given.map child)).toStage report
  stage.transcript calls stage.initial

/-- A pipeline serves calls as the line of its children in running order does. -/
theorem served_eq (given : List ι) (calls : List Call) :
    served child report given calls =
      let line := inRunningOrder (fun i => (child i).kind) given
      (lineUp child report line).transcript calls (states child report (fun _ => []) line) := by
  have whole : (ofStages (given.map child)).toStage report =
      lineUp child report (inRunningOrder (fun i => (child i).kind) given) := by
    rw [toStage, stages_ofStages_map, List.foldr_map, lineUp]
  rw [served, whole]
  simp only [initial_lineUp]

/-- Orders of construction that agree kind by kind are served alike. -/
theorem served_congr {given other : List ι}
    (alike : ∀ k, ofKind (fun i => (child i).kind) k other = ofKind (fun i => (child i).kind) k given)
    (calls : List Call) : served child report other calls = served child report given calls := by
  rw [served_eq, served_eq, inRunningOrder_congr alike]

/-- **A pipeline runs its children in a stable order.**  Whatever the children, there is one line of them in
which kinds never decrease and those of one kind stand as given, and for any calls in a row the pipeline is
the relay along it: what it gives back, and which child is called with what, are told by what each child
answers after the calls it had before.  (To observe the children changes nothing but that their calls are
recorded.)  Each call goes down the line from the first child on; the fault of the first child that fails is
given back, and no child behind it is called.  Another order of construction that agrees kind by kind gives the
same replies, the same reports and the same calls. -/
theorem runs_in_stable_order [DecidableEq ι] {given : List ι} (distinct : given.Nodup) :
    let kind := fun i => (child i).kind
    let answer := fun i => (child i).answer
    let observed := fun i => (child i).observed i
    ∃ line : List ι, Ordered kind line ∧ (∀ k, ofKind kind k line = ofKind kind k given) ∧
      (∀ calls, (served child report given calls).map (·.value) =
        (relay answer line (fun _ => []) calls).map Prod.snd) ∧
      (∀ calls, (served observed (Sum.inl ∘ report) given calls).map callsIn =
        (relay answer line (fun _ => []) calls).map Prod.fst) ∧
      (∀ calls, (served observed (Sum.inl ∘ report) given calls).map withoutCalls =
        served child report given calls) ∧
      (∀ past call, (asked answer past line call).map Prod.fst <+: line) ∧
      (∀ past front i back candidates passed fault, line = front ++ i :: back →
        handed answer past front candidates = .ok passed → answer i (past i) passed = .error fault →
          replied answer past line (.intercept candidates) = .candidates (.error fault) ∧
            (asked answer past line (.intercept candidates)).map Prod.fst = front ++ [i]) ∧
      ∀ other, (∀ k, ofKind kind k other = ofKind kind k given) → ∀ calls,
        served child report other calls = served child report given calls ∧
          served observed (Sum.inl ∘ report) other calls =
            served observed (Sum.inl ∘ report) given calls := by
  intro kind answer observed
  have distinctLine : (inRunningOrder kind given).Nodup :=
    (inRunningOrder_perm kind given).nodup_iff.2 distinct
  refine ⟨inRunningOrder kind given, ordered_inRunningOrder kind given,
    fun k => ofKind_inRunningOrder kind k given, fun calls => ?_, fun calls => ?_, fun calls => ?_,
    fun past call => asked_prefix answer past _ call, ?_, fun other alike calls => ?_⟩
  · rw [served_eq]
    exact replies_lineUp child report distinctLine (fun _ => []) calls
  · rw [served_eq]
    exact (recorded_lineUp child report distinctLine (fun _ => []) calls).1
  · rw [served_eq, served_eq]
    exact (recorded_lineUp child report distinctLine (fun _ => []) calls).2
  · intro past front i back candidates passed fault split before fails
    rw [split]
    exact stops_at_fault answer past before fails
  · exact ⟨served_congr child report alike calls, served_congr observed (Sum.inl ∘ report) alike calls⟩

end Runs

/-- A child that counts the calls on the candidates of a class. -/
def counting (kind : StageKind) (become : Nat → List Candidate → Except Fault (List Candidate)) :
    Stage Event where
  kind := kind
  State := Nat
  initial := 0
  begin _ _ := pure 0
  intercept candidates n := pure (n + 1, become n candidates)
  finish := pure

/-- The first reports and fails on its second call, the third doubles what it is given, and the others drop a
candidate each. -/
def fourChildren : Fin 4 → Stage Event
  | 0 => counting .report fun n candidates => if n = 0 then .ok candidates else .error .noClassInProgress
  | 1 => counting .filter fun _ candidates => .ok candidates.tail
  | 2 => counting .modify fun _ candidates => .ok (candidates ++ candidates)
  | 3 => counting .filter fun _ candidates => .ok candidates.tail

/-- Doubled first and then relieved of two, two candidates stay two, and the second time the first child fails;
and they do so with the third child given first. -/
theorem runs_in_stable_order_fourChildren :
    ([0, 1, 2, 3] : List (Fin 4)).Nodup ∧
      (∀ c x y, (served fourChildren id [0, 1, 2, 3]
          [.begin c, .intercept [x, y], .intercept [x, y], .finish]).map (·.value) =
        [.done, .candidates (.ok [x, y]), .candidates (.error .noClassInProgress), .done]) ∧
      ∀ calls, served fourChildren id [2, 0, 1, 3] calls = served fourChildren id [0, 1, 2, 3] calls := by
  have distinct : ([0, 1, 2, 3] : List (Fin 4)).Nodup := by decide
  obtain ⟨line, ordered, stable, replies, -, -, -, -, anyOrder⟩ :=
    runs_in_stable_order fourChildren id distinct
  have inOrder : line = [2, 1, 3, 0] := by
    refine eq_of_ordered ordered (List.Pairwise.imp of_decide_eq_true (by decide)) fun k => ?_
    rw [stable]
    cases k <;> rfl
  refine ⟨distinct, fun c x y => ?_, fun calls => (anyOrder [2, 0, 1, 3] (fun k => ?_) calls).1⟩
  · rw [replies, inOrder]
    rfl
  · cases k <;> rfl

end Pipeline
end LoopPlumbing
