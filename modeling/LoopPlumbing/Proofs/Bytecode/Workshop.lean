/- # Methods written side by side

Several methods may be written at once, their calls in any order, and all draw their handles from one supply.  A
`Workshop` is the methods as far as they have come, each under a key of its own, with the supply.

There are some thirty calls that emit, and they are told apart here once: `Step.code?` is a table of the opcode and the
operand that each should emit, and `Step.run_of_code?_eq_some` says that each emits that and nothing else.  From then on
a call is known by its row.

What a run of calls hands out is observed call by call (`Workshop.along`): the instructions that stand in a method
behind those that a call has found there, and the labels of one method that are given back.  A handle goes to an
instruction and to nothing else, whichever method it is emitted in, so both are numbered without a gap as long as the
numbers do not run out, and by one argument (`Workshop.numbers_along`).

A method is what was emitted in it, in order and nothing else (`Workshop.method_after`).  So an instruction is found
where its call said, in every method that is built later, and at no other offset (`Workshop.exists_landsAt`).
-/

import LoopPlumbing.Bytecode.Assembler
import Mathlib.Data.List.Nodup
import Mathlib.Logic.Function.Basic

namespace LoopPlumbing
namespace Bytecode

/-! ### What each call emits -/

namespace Step

/-- The opcode and the operand that a call should emit, one row for each call; two calls should emit nothing. -/
def code? : Step → Option Code
  | newLabel | currentOffset => none
  | emit opcode operand => some ⟨opcode, operand⟩
  | label l => some ⟨.label, .label l⟩
  | line n => some ⟨.lineNumber, .line n⟩
  | frame => some ⟨.frame, .none⟩
  | nop => some ⟨.nop, .none⟩
  | constNull => some ⟨.constNull, .none⟩
  | constInt n => some ⟨.constInt, .int n⟩
  | load kind var => some ⟨.load kind, .var var⟩
  | store kind var => some ⟨.store kind, .var var⟩
  | aload var => some ⟨.load .reference, .var var⟩
  | astore var => some ⟨.store .reference, .var var⟩
  | iload var => some ⟨.load .int, .var var⟩
  | istore var => some ⟨.store .int, .var var⟩
  | increment var amount => some ⟨.increment, .increment var amount⟩
  | arithmetic kind op => some ⟨.arithmetic kind op, .none⟩
  | arrayLoad kind => some ⟨.arrayLoad kind, .none⟩
  | arrayStore kind => some ⟨.arrayStore kind, .none⟩
  | arrayLength => some ⟨.arrayLength, .none⟩
  | branch condition target => some ⟨.branch condition, .label target⟩
  | goto target => some ⟨.goto, .label target⟩
  | leave kind => some ⟨.return kind, .none⟩
  | throw => some ⟨.throw, .none⟩
  | invoke dispatch callee => some ⟨.invoke dispatch, .method callee⟩
  | invokeInterface owner name returns => some ⟨.invoke .interface, .method ⟨.ofText owner, name, returns⟩⟩
  | invokeVirtual owner name returns => some ⟨.invoke .virtual, .method ⟨.ofText owner, name, returns⟩⟩
  | invokeStatic owner name returns => some ⟨.invoke .static, .method ⟨.ofText owner, name, returns⟩⟩
  | checkCast name => some ⟨.checkCast, .type (.ofText name)⟩
  | pop => some ⟨.pop, .none⟩
  | dup => some ⟨.dup, .none⟩

variable {step : Step} (d : Draft) (s : HandleSupply)

/-- **A call emits its row of the table**: it adds one instruction with that opcode and operand and with the next
handle, takes no other handle, and answers with the offset of the instruction. -/
theorem run_of_code?_eq_some {code : Code} (h : step.code? = some code) :
    step.run d s = (.offset d.offset, d.emit s.next code, s.rest) := by
  cases step <;> cases h <;> rfl

/-- A call without a row leaves the instructions as they are, and takes no handle. -/
theorem run_of_code?_eq_none (h : step.code? = none) :
    (step.run d s).2.1.finish = d.finish ∧ (step.run d s).2.2 = s := by
  cases step with
  | newLabel | currentOffset => exact ⟨rfl, rfl⟩
  | _ => cases h

/-- Only the call that allocates labels does so, and gives one back. -/
theorem run_of_ne_newLabel (h : step ≠ newLabel) :
    (∃ n, (step.run d s).1 = .offset n) ∧ (step.run d s).2.1.labels = d.labels := by
  cases hc : step.code? with
  | some code =>
      rw [run_of_code?_eq_some d s hc]
      exact ⟨⟨_, rfl⟩, rfl⟩
  | none =>
      cases step with
      | newLabel => exact absurd rfl h
      | currentOffset => exact ⟨⟨_, rfl⟩, rfl⟩
      | _ => cases hc

end Step

/-- Where no two instructions share a handle, a handle stands for one offset. -/
theorem eq_of_handle_eq {code : List Instruction} (distinct : (code.map (·.handle)).Nodup) {i j : ℕ}
    {t u : Instruction} (ht : code[i]? = some t) (hu : code[j]? = some u) (same : t.handle = u.handle) :
    i = j := by
  have inside : i < (code.map (·.handle)).length := by
    rw [List.length_map]
    exact (List.getElem?_eq_some_iff.1 ht).1
  refine (List.getElem?_inj inside distinct).1 ?_
  rw [List.getElem?_map, List.getElem?_map, ht, hu, Option.map_some, Option.map_some, same]

/-! ### Calls on several methods -/

/-- Methods that are being written, each under its own key, and the handles that are left for all of them. -/
structure Workshop (ι : Type) where
  draft : ι → Draft
  supply : HandleSupply

namespace Workshop

/-- A call on one of the methods: a step in writing it, or the request to build the method as it is by then. -/
inductive Call (ι : Type) where
  | step (i : ι) (step : Step)
  | finish (i : ι)
deriving DecidableEq

/-- What a call gives back. -/
inductive Reply where
  | answer (a : Answer)
  | method (m : MethodBody)
deriving DecidableEq

/-- An instruction that was emitted, and the method it went to. -/
structure Emission (ι : Type) where
  key : ι
  instruction : Instruction

variable {ι α : Type}

/-- Nothing is written yet. -/
def opened (location : ι → Location) (supply : HandleSupply) : Workshop ι :=
  ⟨fun i => .empty (location i), supply⟩

/-- The method under a key, as it is now. -/
def method (w : Workshop ι) (i : ι) : MethodBody := (w.draft i).finish

variable [DecidableEq ι]

/-- Makes one call. -/
def handle (w : Workshop ι) : Call ι → Reply × Workshop ι
  | .step i step =>
    let (answer, draft, supply) := step.run (w.draft i) w.supply
    (.answer answer, ⟨Function.update w.draft i draft, supply⟩)
  | .finish i => (.method (w.method i), w)

/-- The workshop after calls, the first call first. -/
def after (w : Workshop ι) (calls : List (Call ι)) : Workshop ι :=
  calls.foldl (fun w call => (w.handle call).2) w

/-- What a call gives back that is made after others. -/
def replyTo (w : Workshop ι) (before : List (Call ι)) (call : Call ι) : Reply :=
  ((w.after before).handle call).1

/-- In the course of a run the method `m` is built under a key. -/
def Builds (w : Workshop ι) (calls : List (Call ι)) (i : ι) (m : MethodBody) : Prop :=
  ∃ before rest, calls = before ++ .finish i :: rest ∧ w.replyTo before (.finish i) = .method m

/-- What a call emits: the instructions of its method that stand behind those that it has found there. -/
def emitted (w : Workshop ι) : Call ι → List (Emission ι)
  | .step i step =>
    (((w.handle (.step i step)).2.draft i).instructions.drop (w.draft i).offset).map fun t => ⟨i, t⟩
  | .finish _ => []

/-- The label that a call gives back, if it does and is a call on the method. -/
def given (i : ι) (w : Workshop ι) : Call ι → List Label
  | .step j step =>
    match (w.handle (.step j step)).1 with
    | .answer (.label l) => if j = i then [l] else []
    | _ => []
  | .finish _ => []

/-- What is read off the calls of a run, each seen from the workshop that it finds. -/
def along (read : Workshop ι → Call ι → List α) : Workshop ι → List (Call ι) → List α
  | _, [] => []
  | w, call :: calls => read w call ++ along read (w.handle call).2 calls

/-- The instructions that a run emits, in any of the methods. -/
def emissions (w : Workshop ι) (calls : List (Call ι)) : List (Emission ι) := along emitted w calls

/-- The labels that a run allocates for one method. -/
def labels (w : Workshop ι) (i : ι) (calls : List (Call ι)) : List Label := along (given i) w calls

/-- What is read off a run is read off its first calls and then off the others. -/
theorem along_append (read : Workshop ι → Call ι → List α) (w : Workshop ι) (calls more : List (Call ι)) :
    along read w (calls ++ more) = along read w calls ++ along read (w.after calls) more := by
  induction calls generalizing w with
  | nil => rfl
  | cons call calls ih =>
      rw [List.cons_append, along, along, ih, List.append_assoc]
      rfl

/-- Calls after calls. -/
theorem after_append (w : Workshop ι) (calls more : List (Call ι)) :
    w.after (calls ++ more) = (w.after calls).after more := List.foldl_append

variable {w : Workshop ι} {call : Call ι} {step : Step}

/-! ### One call -/

section Handle

/-- A step in one method leaves the others as they are. -/
theorem draft_handle_of_ne {i j : ι} (h : i ≠ j) (step : Step) : (w.handle (.step j step)).2.draft i = w.draft i :=
  Function.update_of_ne h _ _

/-- A step does to its own method what it does to a draft. -/
theorem draft_handle_self (i : ι) (step : Step) :
    (w.handle (.step i step)).2.draft i = (step.run (w.draft i) w.supply).2.1 :=
  Function.update_self _ _ _

/-- **A call that emits emits its row of the table**, under the next handle. -/
theorem emitted_of_code?_eq_some {code : Code} (h : step.code? = some code) (i : ι) :
    w.emitted (.step i step) = [⟨i, ⟨w.supply.next, code⟩⟩] := by
  rw [emitted, draft_handle_self, Step.run_of_code?_eq_some _ _ h]
  simp only [Draft.emit, Draft.offset, List.drop_left, List.map_cons, List.map_nil]

/-- A call without a row emits nothing. -/
theorem emitted_of_code?_eq_none (h : step.code? = none) (i : ι) : w.emitted (.step i step) = [] := by
  have same : ((w.handle (.step i step)).2.draft i).instructions = (w.draft i).instructions := by
    rw [draft_handle_self]
    exact congrArg MethodBody.instructions (Step.run_of_code?_eq_none _ _ h).1
  rw [emitted, same, Draft.offset, List.drop_length, List.map_nil]

/-- **A handle goes to each instruction, and to nothing else.** -/
theorem emitted_and_supply (w : Workshop ι) (call : Call ι) :
    w.emitted call = [] ∧ (w.handle call).2.supply = w.supply ∨
      ∃ e, w.emitted call = [e] ∧ e.instruction.handle = w.supply.next ∧
        (w.handle call).2.supply = w.supply.rest := by
  cases call with
  | finish i => exact .inl ⟨rfl, rfl⟩
  | step i step =>
      cases h : step.code? with
      | none => exact .inl ⟨emitted_of_code?_eq_none h i, (Step.run_of_code?_eq_none _ _ h).2⟩
      | some code =>
          refine .inr ⟨_, emitted_of_code?_eq_some h i, rfl, ?_⟩
          show (step.run (w.draft i) w.supply).2.2 = _
          rw [Step.run_of_code?_eq_some _ _ h]

/-- **Each label of a method is counted, and nothing else.** -/
theorem given_and_labels (i : ι) (w : Workshop ι) (call : Call ι) :
    given i w call = [] ∧ ((w.handle call).2.draft i).labels = (w.draft i).labels ∨
      given i w call = [(w.draft i).freshLabel] ∧
        ((w.handle call).2.draft i).labels = (w.draft i).labels + 1 := by
  cases call with
  | finish j => exact .inl ⟨rfl, rfl⟩
  | step j step =>
      by_cases e : j = i
      · subst e
        rw [draft_handle_self]
        by_cases h : step = .newLabel
        · subst h
          exact .inr ⟨if_pos rfl, rfl⟩
        · obtain ⟨⟨n, answered⟩, kept⟩ := Step.run_of_ne_newLabel (w.draft j) w.supply h
          refine .inl ⟨?_, kept⟩
          simp only [given, handle, answered]
      · rw [draft_handle_of_ne (Ne.symm e)]
        refine .inl ⟨?_, rfl⟩
        rw [given]
        split
        · exact if_neg e
        · rfl

/-- **What one call does to a method:** it adds the instruction that the call emits in it. -/
theorem method_handle (w : Workshop ι) (call : Call ι) (i : ι) :
    (w.handle call).2.method i =
      ⟨(w.method i).location, (w.method i).instructions ++
        ((w.emitted call).filter (·.key = i)).map (·.instruction)⟩ := by
  have untouched : w.method i = ⟨(w.method i).location, (w.method i).instructions ++ []⟩ := by
    rw [List.append_nil]
  cases call with
  | finish j => exact untouched
  | step j step =>
      by_cases e : j = i
      · subst e
        rw [method, draft_handle_self]
        cases h : step.code? with
        | none =>
            rw [emitted_of_code?_eq_none h, (Step.run_of_code?_eq_none _ _ h).1]
            exact untouched
        | some code =>
            rw [emitted_of_code?_eq_some h, Step.run_of_code?_eq_some _ _ h, List.filter_cons_of_pos (by simp)]
            rfl
      · have other : (w.handle (.step j step)).2.method i = w.method i := by
          rw [method, draft_handle_of_ne (Ne.symm e), method]
        have elsewhere : (w.emitted (.step j step)).filter (·.key = i) = [] := by
          rw [emitted, List.filter_eq_nil_iff]
          intro x hx
          obtain ⟨t, -, rfl⟩ := List.mem_map.1 hx
          simpa using e
        rw [other, elsewhere]
        exact untouched

end Handle

/-! ### Handles and labels of a run -/

section Numbers

/-- **What is handed out one by one has consecutive numbers.**  A call hands out nothing and leaves the next number as
it is, or it hands out one thing with the number that is next, and then the number after it is next as long as it is
below the bound. -/
theorem numbers_along {read : Workshop ι → Call ι → List α} (number : α → ℕ) (next : Workshop ι → ℕ) {bound : ℕ}
    (counted : ∀ w call, read w call = [] ∧ next (w.handle call).2 = next w ∨
      ∃ a, read w call = [a] ∧ number a = next w ∧
        (next w + 1 < bound → next (w.handle call).2 = next w + 1))
    (calls : List (Call ι)) (w : Workshop ι) (enough : next w + (along read w calls).length < bound) :
    (along read w calls).map number = List.range' (next w) (along read w calls).length := by
  induction calls generalizing w with
  | nil => rfl
  | cons call calls ih =>
      rw [along] at enough ⊢
      rcases counted w call with ⟨nothing, same⟩ | ⟨a, one, first, onward⟩
      · rw [nothing, List.nil_append] at enough ⊢
        rw [ih _ (same ▸ enough), same]
      · rw [one, List.singleton_append, List.length_cons] at enough ⊢
        have next_eq := onward (by omega)
        rw [List.map_cons, ih _ (by omega), first, next_eq, List.range'_succ]

omit [DecidableEq ι] in
/-- Consecutive numbers go up. -/
theorem pairwise_lt_of_map_eq_range' {l : List α} (number : α → ℕ) {start : ℕ}
    (h : l.map number = List.range' start l.length) : l.Pairwise fun a b => number a < number b := by
  rw [← List.pairwise_map, h]
  exact List.pairwise_lt_range'

/-- **Handles go up from one emission to the next**, whichever methods they are in. -/
theorem pairwise_emissions (calls : List (Call ι))
    (enough : w.supply.next.number.toNat + (w.emissions calls).length < UInt64.size) :
    (w.emissions calls).Pairwise fun e e' =>
      e.instruction.handle.number.toNat < e'.instruction.handle.number.toNat := by
  refine pairwise_lt_of_map_eq_range' (·.instruction.handle.number.toNat)
    (numbers_along _ (·.supply.next.number.toNat) (fun w call => ?_) calls w enough)
  rcases emitted_and_supply w call with ⟨nothing, same⟩ | ⟨e, one, first, onward⟩
  · exact .inl ⟨nothing, by rw [same]⟩
  · refine .inr ⟨e, one, by rw [first], fun inside => ?_⟩
    rw [onward, HandleSupply.rest, UInt64.toNat_add]
    exact Nat.mod_eq_of_lt inside

/-- No two emissions have the same handle. -/
theorem nodup_handles (calls : List (Call ι))
    (enough : w.supply.next.number.toNat + (w.emissions calls).length < UInt64.size) :
    ((w.emissions calls).map (·.instruction.handle)).Nodup := by
  refine List.pairwise_map.2 ((pairwise_emissions calls enough).imp fun lt same => ?_)
  exact Nat.ne_of_lt lt (congrArg (·.number.toNat) same)

/-- **The labels of one method are all different**, whatever is written in between. -/
theorem nodup_labels (i : ι) (calls : List (Call ι))
    (enough : (w.draft i).labels.toNat + (w.labels i calls).length < UInt32.size) : (w.labels i calls).Nodup := by
  refine (pairwise_lt_of_map_eq_range' (·.number.toNat)
    (numbers_along _ (fun w => (w.draft i).labels.toNat) (fun w call => ?_) calls w enough)).imp fun lt e => ?_
  · rcases given_and_labels i w call with ⟨nothing, same⟩ | ⟨one, onward⟩
    · exact .inl ⟨nothing, by rw [same]⟩
    · refine .inr ⟨_, one, rfl, fun inside => ?_⟩
      rw [onward, UInt32.toNat_add]
      exact Nat.mod_eq_of_lt inside
  · subst e
    exact Nat.lt_irrefl _ lt

/-- Each label is given back by the call that allocates it, at its place among the others. -/
theorem exists_label (w : Workshop ι) (before : List (Call ι)) (i : ι) (rest : List (Call ι)) :
    ∃ l, w.replyTo before (.step i .newLabel) = .answer (.label l) ∧
      w.labels i (before ++ .step i .newLabel :: rest) =
        w.labels i before ++ l :: (w.after (before ++ [.step i .newLabel])).labels i rest := by
  refine ⟨((w.after before).draft i).freshLabel, rfl, ?_⟩
  have here : given i (w.after before) (.step i .newLabel) = [((w.after before).draft i).freshLabel] := if_pos rfl
  rw [labels, along_append, along, here, after_append]
  rfl

end Numbers

/-! ### Methods of a run -/

section Methods

/-- **A method is what was emitted in it**, in order and nothing else. -/
theorem method_after (w : Workshop ι) (calls : List (Call ι)) (i : ι) :
    (w.after calls).method i =
      ⟨(w.method i).location, (w.method i).instructions ++
        ((w.emissions calls).filter (·.key = i)).map (·.instruction)⟩ := by
  induction calls generalizing w with
  | nil => simp [after, emissions, along]
  | cons call calls ih =>
      have rest : w.after (call :: calls) = (w.handle call).2.after calls := rfl
      have both : w.emissions (call :: calls) = w.emitted call ++ (w.handle call).2.emissions calls := rfl
      rw [rest, ih, method_handle, both, List.filter_append, List.map_append, List.append_assoc]

/-- What is built is what was emitted until then. -/
theorem replyTo_finish (location : ι → Location) (s : HandleSupply) (before : List (Call ι)) (i : ι) :
    (opened location s).replyTo before (.finish i) =
      .method ⟨location i, (((opened location s).emissions before).filter (·.key = i)).map (·.instruction)⟩ :=
  congrArg Reply.method (method_after (opened location s) before i)

/-- No two instructions of a method that is built in the course of a run have the same handle. -/
theorem Builds.nodup_handles {location : ι → Location} {s : HandleSupply} {calls : List (Call ι)}
    (enough : s.next.number.toNat + ((opened location s).emissions calls).length < UInt64.size) {i : ι}
    {m : MethodBody} (h : (opened location s).Builds calls i m) : (m.instructions.map (·.handle)).Nodup := by
  obtain ⟨before, rest, rfl, built⟩ := h
  rw [replyTo_finish] at built
  cases built
  have all := Workshop.nodup_handles (w := opened location s) _ enough
  rw [emissions, along_append, List.map_append] at all
  have until_then := (List.nodup_append.1 all).1
  rw [List.map_map]
  exact until_then.sublist (List.filter_sublist.map _)

/-- The instruction that the call `step` on the method `i` emits is `e`, and it is found at the offset `n`. -/
structure LandsAt (w : Workshop ι) (before : List (Call ι)) (i : ι) (step : Step) (rest : List (Call ι))
    (e : Emission ι) (n : ℕ) : Prop where
  /-- The call emits one instruction, in its own method. -/
  emitted : (w.after before).emitted (.step i step) = [e] ∧ e.key = i
  /-- The run emits it behind what was emitted before and ahead of what is emitted afterwards. -/
  emissions : w.emissions (before ++ .step i step :: rest) =
    w.emissions before ++ e :: (w.after (before ++ [.step i step])).emissions rest
  /-- The call gives back the offset. -/
  reply : w.replyTo before (.step i step) = .answer (.offset n)
  /-- Whenever the method is built, the instruction is found at that offset and at no other. -/
  found : ∀ between more, rest = between ++ .finish i :: more →
    ∃ m, w.replyTo (before ++ .step i step :: between) (.finish i) = .method m ∧
      ∀ k, m.instruction? k = some e.instruction ↔ k = n

/-- **The offset that a call gives back is that of its own instruction**, whatever is written before and afterwards. -/
theorem exists_landsAt {location : ι → Location} {s : HandleSupply} {before rest : List (Call ι)} {i : ι}
    {code : Code}
    (enough : s.next.number.toNat +
      ((opened location s).emissions (before ++ .step i step :: rest)).length < UInt64.size)
    (h : step.code? = some code) :
    ∃ e n, (opened location s).LandsAt before i step rest e n ∧ e.instruction.code = code := by
  let w := (opened location s).after before
  have emitted_eq : w.emitted (.step i step) = [⟨i, ⟨w.supply.next, code⟩⟩] := emitted_of_code?_eq_some h i
  refine ⟨⟨i, ⟨w.supply.next, code⟩⟩, (w.draft i).offset, ⟨⟨emitted_eq, rfl⟩, ?_, ?_, ?_⟩, rfl⟩
  · rw [Workshop.emissions, along_append, along, emitted_eq, after_append]
    rfl
  · show Reply.answer (step.run (w.draft i) w.supply).1 = _
    rw [Step.run_of_code?_eq_some _ _ h]
  · rintro between more rfl
    refine ⟨_, rfl, ?_⟩
    -- What is built later starts with the instructions that stood in the method right after the call.
    have there : (((opened location s).after (before ++ .step i step :: between)).method i).instruction?
        (w.draft i).offset = some ⟨w.supply.next, code⟩ := by
      have later : (opened location s).after (before ++ .step i step :: between) =
          (w.handle (.step i step)).2.after between := after_append _ before (.step i step :: between)
      rw [later, method_after, method_handle, emitted_eq]
      simp [MethodBody.instruction?, method, Draft.finish, Draft.offset]
    have distinct : ((((opened location s).after (before ++ .step i step :: between)).method i).instructions.map
        (·.handle)).Nodup :=
      Builds.nodup_handles enough ⟨before ++ .step i step :: between, more, by simp, rfl⟩
    exact fun k => ⟨fun found => eq_of_handle_eq distinct found there rfl, fun e => e ▸ there⟩

end Methods

end Workshop
end Bytecode
end LoopPlumbing
