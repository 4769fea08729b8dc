/- # Logged computations

A computation that reports what it does is its result together with the events it reported, oldest
first.  Doing one computation after another puts the events of the second behind those of the first
(`events_bind`) and does not change what either computes (`value_bind`), so a statement about results
may forget the log, and a statement about the log may name each part.

`gather` is the one traversal that the library needs: it runs a list of computations in order and
joins both the results and the events.
-/

namespace LoopPlumbing

universe u v w

/-- A result and the events reported on the way to it, oldest first. -/
@[ext]
structure Logged (ε : Type u) (α : Type v) where
  value : α
  events : List ε

namespace Logged

variable {ε : Type u} {α : Type v} {β : Type w}

/-- What comes second adds its events behind those that came first. -/
instance : Monad (Logged ε) where
  pure a := ⟨a, []⟩
  bind x f := let y := f x.value; ⟨y.value, x.events ++ y.events⟩

/-- A known result is itself. -/
@[simp] theorem value_pure (a : α) : (pure a : Logged ε α).value = a := rfl

/-- A known result reports nothing. -/
@[simp] theorem events_pure (a : α) : (pure a : Logged ε α).events = [] := rfl

/-- One computation after another gives what the second gives. -/
@[simp] theorem value_bind {β : Type v} (x : Logged ε α) (f : α → Logged ε β) :
    (x >>= f).value = (f x.value).value := rfl

/-- The events of two computations stand one after the other. -/
@[simp] theorem events_bind {β : Type v} (x : Logged ε α) (f : α → Logged ε β) :
    (x >>= f).events = x.events ++ (f x.value).events := rfl

/-- What is done to a result does not touch the log. -/
@[simp] theorem value_map {β : Type v} (f : α → β) (x : Logged ε α) :
    (f <$> x).value = f x.value := rfl

/-- What is done to a result reports nothing. -/
@[simp] theorem events_map {β : Type v} (f : α → β) (x : Logged ε α) :
    (f <$> x).events = x.events := List.append_nil _

/-- Regrouping computations changes neither results nor events. -/
instance : LawfulMonad (Logged ε) := LawfulMonad.mk' _
  (fun _ => Logged.ext rfl (events_map _ _))
  (fun _ _ => rfl)
  (fun _ _ _ => Logged.ext rfl (List.append_assoc _ _ _))

/-- What follows matters only at the result that was reached. -/
theorem bind_congr_value {β : Type v} {x : Logged ε α} {f g : α → Logged ε β}
    (h : f x.value = g x.value) : x >>= f = x >>= g := by
  refine Logged.ext ?_ ?_
  · rw [value_bind, value_bind, h]
  · rw [events_bind, events_bind, h]

/-! ### Reporting -/

/-- Reports one event. -/
def emit (e : ε) : Logged ε PUnit.{v + 1} := ⟨⟨⟩, [e]⟩

/-- What is reported is one event. -/
@[simp] theorem events_emit (e : ε) : (emit e : Logged ε PUnit.{v + 1}).events = [e] := rfl

/-- Reports one event under a condition. -/
def emitIf (condition : Bool) (e : ε) : Logged ε PUnit.{v + 1} :=
  ⟨⟨⟩, if condition then [e] else []⟩

/-- What is reported under a condition. -/
@[simp] theorem events_emitIf (condition : Bool) (e : ε) :
    (emitIf condition e : Logged ε PUnit.{v + 1}).events = if condition then [e] else [] := rfl

/-- Rewords every event. -/
def mapEvents {δ : Type w} (f : ε → δ) (x : Logged ε α) : Logged δ α := ⟨x.value, x.events.map f⟩

/-- Rewording the events leaves the result as it is. -/
@[simp] theorem value_mapEvents {δ : Type w} (f : ε → δ) (x : Logged ε α) :
    (x.mapEvents f).value = x.value := rfl

/-- Rewording goes through the events one by one. -/
@[simp] theorem events_mapEvents {δ : Type w} (f : ε → δ) (x : Logged ε α) :
    (x.mapEvents f).events = x.events.map f := rfl

/-! ### Several in a row -/

/-- Runs `f` on each element in order, joining the lists it gives. -/
def gather : List α → (α → Logged ε (List β)) → Logged ε (List β)
  | [], _ => pure []
  | a :: as, f =>
    let first := f a
    let rest := gather as f
    ⟨first.value ++ rest.value, first.events ++ rest.events⟩

/-- With no elements nothing is run. -/
@[simp] theorem gather_nil (f : α → Logged ε (List β)) : gather [] f = pure [] := rfl

/-- Runs that agree on every element of the list give and report the same together. -/
theorem gather_congr {as : List α} {f g : α → Logged ε (List β)} (h : ∀ a ∈ as, f a = g a) :
    gather as f = gather as g := by
  induction as with
  | nil => rfl
  | cons a as ih =>
    simp only [gather, h a List.mem_cons_self, ih fun b hb => h b (List.mem_cons_of_mem _ hb)]

/-- The elements may be renamed beforehand. -/
theorem gather_map {γ : Type w} (g : γ → α) (cs : List γ) (f : α → Logged ε (List β)) :
    gather (cs.map g) f = gather cs (f ∘ g) := by
  induction cs with
  | nil => rfl
  | cons c cs ih => simp only [List.map_cons, gather, ih, Function.comp_apply]

/-- The lists are joined in order. -/
@[simp] theorem value_gather (as : List α) (f : α → Logged ε (List β)) :
    (gather as f).value = as.flatMap fun a => (f a).value := by
  induction as with
  | nil => rfl
  | cons a as ih => simp [gather, ih]

/-- The events are joined in order. -/
@[simp] theorem events_gather (as : List α) (f : α → Logged ε (List β)) :
    (gather as f).events = as.flatMap fun a => (f a).events := by
  induction as with
  | nil => rfl
  | cons a as ih => simp [gather, ih]

/-- Keeps the elements that pass a test, testing them in order. -/
def select (p : α → Logged ε Bool) (as : List α) : Logged ε (List α) :=
  gather as fun a => let passed := p a; ⟨if passed.value then [a] else [], passed.events⟩

/-- What is kept is what passes the test. -/
@[simp] theorem value_select (p : α → Logged ε Bool) (as : List α) :
    (select p as).value = as.filter fun a => (p a).value := by
  induction as with
  | nil => rfl
  | cons a as ih =>
    simp only [select, value_gather, List.flatMap_cons] at ih ⊢
    cases h : (p a).value <;> simp [h, ih]

/-- Every element is tested, also those that are dropped. -/
@[simp] theorem events_select (p : α → Logged ε Bool) (as : List α) :
    (select p as).events = as.flatMap fun a => (p a).events := by
  simp [select]

end Logged
end LoopPlumbing
