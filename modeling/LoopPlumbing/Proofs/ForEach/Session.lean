/- # Calls on a filter

A filter is called in any order: it begins a class, sieves candidates, tells the plumbing of a method,
finishes.  What a call gives back is answered here without a filter, from the class in progress alone
(`answer`), and the class in progress is read off the calls made before (`inProgress`).

The filter after some calls is the class in progress with the memory of the methods consulted since it began
(`after_eq`), whatever the order of the calls and whichever of them failed.  So every call gives back its
answer.

The memory is emptied whenever a class begins or ends, so it never holds a method of another class; and a method is
looked up by the location that it has itself, which is what makes an entry right for as long as it is kept
(`eq_of_location_eq`).
-/

import LoopPlumbing.Proofs.ForEach.Memory

namespace LoopPlumbing
namespace ForEach

open Bytecode

/-! ### Calls, and what they add up to -/

/-- One call on a filter. -/
inductive Call where
  | begin (c : ClassBody)
  | intercept (candidates : List Candidate)
  | plumbingFor (l : Location)
  | finish

/-- What a call gives back. -/
inductive Reply where
  | done
  | candidates (result : Except Fault (List Candidate))
  | plumbing (result : Except Fault HandleSet)

/-- Makes one call. -/
def Filter.handle : Call → Filter → Logged Event (Filter × Reply)
  | .begin c, f => (fun f => (f, .done)) <$> f.begin c
  | .intercept candidates, f => (fun (f, result) => (f, .candidates result)) <$> f.intercept candidates
  | .plumbingFor l, f => (fun (f, result) => (f, .plumbing result)) <$> f.plumbingFor l
  | .finish, f => (fun f => (f, .done)) <$> f.finish

/-- A filter after calls, the last call first. -/
def after (debug : Bool) : List Call → Filter
  | [] => .fresh debug
  | call :: past => ((after debug past).handle call).value.1

/-- The class of the last `begin` that no `finish` follows, of calls with the last one first. -/
def inProgress : List Call → Option ClassBody
  | [] => none
  | .begin c :: _ => some c
  | .finish :: _ => none
  | .intercept _ :: past => inProgress past
  | .plumbingFor _ :: past => inProgress past

/-- The methods consulted since the class in progress began, the last one first and each as often as it was
consulted. -/
def consultations : List Call → List MethodBody
  | [] => []
  | .begin _ :: _ => []
  | .finish :: _ => []
  | .intercept candidates :: past =>
    match inProgress past with
    | none => []
    | some c => (consulted c candidates).reverse ++ consultations past
  | .plumbingFor l :: past =>
    match inProgress past with
    | none => []
    | some c => (c.method? l).toList ++ consultations past

/-- What a call has to give back while a class is in progress, or none. -/
def answer (debug : Bool) : Option ClassBody → Call → Reply
  | _, .begin _ => .done
  | _, .finish => .done
  | none, .intercept _ => .candidates (.error .noClassInProgress)
  | none, .plumbingFor _ => .plumbing (.error .noClassInProgress)
  | some c, .intercept candidates => .candidates (sieved debug c candidates)
  | some c, .plumbingFor l =>
    match c.method? l with
    | none => .plumbing (.error (.unknownMethod c.name.internal l.signature))
    | some m => .plumbing (.ok (freshPlumbing debug m))

/-! ### The state after calls -/

/-- Nothing is consulted while no class is in progress. -/
theorem consultations_of_none {past : List Call} (h : inProgress past = none) :
    consultations past = [] := by
  cases past with
  | nil => rfl
  | cons call past =>
      cases call with
      | begin c => cases h
      | finish => rfl
      | intercept candidates =>
          rw [inProgress] at h
          rw [consultations, h]
      | plumbingFor l =>
          rw [inProgress] at h
          rw [consultations, h]

/-- What was consulted was found in the class in progress. -/
theorem found_of_mem_consultations {past : List Call} {c : ClassBody} (h : inProgress past = some c) :
    ∀ m ∈ consultations past, Found c m := by
  induction past with
  | nil => cases h
  | cons call past ih =>
      intro m hm
      cases call with
      | begin _ => cases hm
      | finish => cases h
      | intercept candidates =>
          rw [inProgress] at h
          rw [consultations, h] at hm
          rcases List.mem_append.1 hm with hm | hm
          · exact found_of_mem_consulted (List.mem_reverse.1 hm)
          · exact ih h m hm
      | plumbingFor l =>
          rw [inProgress] at h
          rw [consultations, h] at hm
          rcases List.mem_append.1 hm with hm | hm
          · exact ⟨l, Option.mem_toList.1 hm⟩
          · exact ih h m hm

/-- **What one call does:** it gives back its answer and leaves the filter of one call more. -/
theorem value_handle (debug : Bool) (past : List Call) (call : Call) :
    (Filter.handle call ⟨inProgress past, memory debug (consultations past).dedup, debug⟩).value =
      (⟨inProgress (call :: past), memory debug (consultations (call :: past)).dedup, debug⟩,
        answer debug (inProgress past) call) := by
  cases call with
  | begin c => rfl
  | finish =>
      cases h : inProgress past with
      | none => rfl
      | some c => rfl
  | intercept candidates =>
      rw [inProgress, consultations]
      cases h : inProgress past with
      | none =>
          rw [consultations_of_none h]
          rfl
      | some c =>
          have sieve := value_sieve debug candidates (found_of_mem_consultations h)
          rw [Filter.handle, Filter.intercept, Logged.value_map, sieve]
          rfl
  | plumbingFor l =>
      rw [inProgress, consultations]
      cases h : inProgress past with
      | none =>
          rw [consultations_of_none h]
          rfl
      | some c =>
          rw [Filter.handle, Filter.plumbingFor, Logged.value_map, answer]
          simp only [findMethod]
          cases hm : c.method? l with
          | none => rfl
          | some m =>
              have look := value_analyse debug (found_of_mem_consultations h) ⟨l, hm⟩
              simp only [Logged.value_bind, look]
              rfl

/-- **The filter after any calls.** -/
theorem after_eq (debug : Bool) (past : List Call) :
    after debug past = ⟨inProgress past, memory debug (consultations past).dedup, debug⟩ := by
  induction past with
  | nil => rfl
  | cons call past ih => rw [after, ih, value_handle]

/-! ### Replies -/

section Calls

variable {debug : Bool} {past : List Call} {c : ClassBody} (h : inProgress past = some c)
include h

/-- The plumbing of a method of the class in progress is what a fresh computation gives. -/
theorem plumbingFor_after {l : Location} {m : MethodBody} (hm : c.method? l = some m) :
    ((after debug past).plumbingFor l).value.2 = .ok (freshPlumbing debug m) := by
  have reply := congrArg Prod.snd (value_handle debug past (.plumbingFor l))
  rw [← after_eq, h, answer, hm] at reply
  exact Reply.plumbing.inj reply

/-- Candidates are sieved as without memory. -/
theorem intercept_after (candidates : List Candidate) :
    ((after debug past).intercept candidates).value.2 = sieved debug c candidates := by
  have reply := congrArg Prod.snd (value_handle debug past (.intercept candidates))
  rw [← after_eq, h] at reply
  exact Reply.candidates.inj reply

end Calls

/-- **Every call gives back its answer**, whatever calls were made before, and the number of methods analysed
is the number of different methods consulted since the class in progress began. -/
theorem reply_eq_answer (debug : Bool) (past : List Call) (call : Call) :
    ((after debug past).handle call).value.2 = answer debug (inProgress past) call ∧
      (after debug past).cachedMethods =
        match inProgress past with
        | none => 0
        | some _ => (consultations past).dedup.length := by
  rw [after_eq, value_handle]
  refine ⟨rfl, ?_⟩
  rw [Filter.cachedMethods, memory, List.length_map]
  cases h : inProgress past with
  | some c => rfl
  | none =>
      rw [consultations_of_none h]
      rfl

end ForEach
end LoopPlumbing
