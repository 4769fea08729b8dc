/- # Predicates as clues

A predicate that captures and compares asks something of a token that hangs on what the slots stand for.  A
`Clue` says what it asks in terms of names: given what the names `a` stand for, the token must fit, and it may
be recorded.  The bindings of a context are a function of the names, and `Tells` says that a predicate follows
a clue and takes some bindings to others.

A word of such predicates then leads somewhere exactly if the names can be given a sense in which token after
token fits (`TellsAll.walk_eq_some_iff`).

What a name stands for is settled where it is captured and asked for where it is compared, so a word is a system of
conditions on unknowns.  The word is gone through once.  A name that is new is free to take the sense that a token
gives it, and this changes nothing about what has been asked before, since only names that are bound already were
asked about (`Tells.settled`).
-/

import LoopPlumbing.Proofs.Sequence.Plain

namespace LoopPlumbing
namespace Sequence

variable {α β τ ν : Type}

/-- What one token has to be, by what the names stand for, and whether it is recorded. -/
structure Clue (α τ : Type) where
  fits : α → τ → Prop
  records : Bool

/-- From a position on, the stream has tokens with these properties, one behind the other. -/
def Row (stream : List τ) : ℕ → List (τ → Prop) → Prop
  | _, [] => True
  | i, fits :: row => (∃ t, stream[i]? = some t ∧ fits t) ∧ Row stream (i + 1) row

/-- The positions that clues record if they are followed from a position on. -/
def marks : List (Clue α τ) → ℕ → List ℕ
  | [], _ => []
  | k :: clues, i => if k.records then i :: marks clues (i + 1) else marks clues (i + 1)

/-- With the bindings that `before` gives for some names, the predicate accepts the tokens that fit the clue
if names outside these bindings are given a sense, and leaves the bindings that `after` gives. -/
structure Tells (before : α → List (ℕ × ν)) (p : Predicate τ ν) (k : Clue α τ)
    (after : α → List (ℕ × ν)) : Prop where
  /-- What the clue asks is settled by the bindings afterwards. -/
  settled : ∀ {a a' : α}, after a' = after a →
    before a' = before a ∧ ∀ t, k.fits a t → k.fits a' t
  test_eq_some_iff : ∀ {a : α} {i : ℕ} {recorded : List τ} {debug : Bool} {t : τ} {d : Context τ ν},
    (p.test ⟨i, before a, recorded, debug⟩ t).value = some d ↔
      ∃ a', before a' = before a ∧ k.fits a' t ∧
        d = ⟨i, after a', if k.records then recorded ++ [t] else recorded, debug⟩

/-! ### What each predicate tells

A capture of a name that has no sense yet gives it one; a comparison with a name that has a sense asks for it.  What
a predicate asks is stated for tokens, so that a conjunction asks for both parts at once.
-/

namespace Tells

variable {before middle after : α → List (ℕ × ν)} {p q : Predicate τ ν} {k : Clue α τ}
  {f g : α → τ → Prop}

/-- The clue may be said in other words. -/
theorem congr (h : Tells before p ⟨f, k.records⟩ after) (same : ∀ a t, f a t ↔ k.fits a t) :
    Tells before p k after := by
  have e : (⟨f, k.records⟩ : Clue α τ) = k :=
    congrArg (Clue.mk · k.records) (funext fun a => funext fun t => propext (same a t))
  exact e ▸ h

/-- A test of the token alone tells what it tests, whatever is bound. -/
theorem satisfying {p : τ → Bool} {f : τ → Prop} (same : ∀ t, p t = true ↔ f t) :
    Tells before (.satisfying p) ⟨fun _ => f, false⟩ before where
  settled h := ⟨h, fun _ => id⟩
  test_eq_some_iff {a i recorded debug t d} := by
    rw [Predicate.value_test_satisfying]
    constructor
    · intro h
      split at h
      · next ht => exact ⟨a, rfl, (same t).1 ht, (Option.some.inj h).symm⟩
      · cases h
    · rintro ⟨a', kept, ht, rfl⟩
      rw [if_pos ((same t).2 ht), kept]
      rfl

/-- A slot that is not bound yet stands for what `v` names, and any sense can be given to that name. -/
theorem capture {s : Slot} {get : τ → Option β} {mk : β → ν} {v : α → β} (hmk : Function.Injective mk)
    (unbound : ∀ a, (before a).lookup s.id = none)
    (free : ∀ a b, ∃ a', before a' = before a ∧ v a' = b) :
    Tells before (.capture s fun t => (get t).map mk) ⟨fun a t => get t = some (v a), false⟩
      fun a => (s.id, mk (v a)) :: before a where
  settled {a a'} h := by
    obtain ⟨same, h⟩ := List.cons.inj h
    have same : v a = v a' := hmk (Prod.mk.inj same).2.symm
    exact ⟨h, fun t ht => ht.trans (congrArg some same)⟩
  test_eq_some_iff {a i recorded debug t d} := by
    have unbound : (⟨i, before a, recorded, debug⟩ : Context τ ν).isBound s = false := by
      rw [Context.isBound, Context.value?, unbound]
      rfl
    rw [Predicate.value_test_capture, Option.bind_map, Option.bind_eq_some_iff]
    simp only [Function.comp_apply, Context.store_eq_some_iff, unbound, true_and]
    constructor
    · rintro ⟨b, hb, rfl⟩
      obtain ⟨a', same, rfl⟩ := free a b
      exact ⟨a', same, hb, by rw [same]; rfl⟩
    · rintro ⟨a', same, hb, rfl⟩
      exact ⟨v a', hb, by rw [same]; rfl⟩

/-- A slot that is bound stands for what `v` names. -/
theorem equalsBound [BEq ν] [LawfulBEq ν] {s : Slot} {get : τ → Option β} {mk : β → ν} {v : α → β}
    (hmk : Function.Injective mk) (bound : ∀ a, (before a).lookup s.id = some (mk (v a))) :
    Tells before (.equalsBound s fun t => (get t).map mk) ⟨fun a t => get t = some (v a), false⟩
      before := by
  have named : ∀ {a a' : α}, before a' = before a → v a' = v a := by
    intro a a' h
    refine hmk (Option.some.inj ?_)
    rw [← bound, ← bound, h]
  refine ⟨fun h => ⟨h, fun t ht => ht.trans (congrArg some (named h).symm)⟩, ?_⟩
  intro a i recorded debug t d
  have value : (⟨i, before a, recorded, debug⟩ : Context τ ν).value? s = some (mk (v a)) := bound a
  rw [Predicate.value_test_equalsBound, value, Option.bind_some, Option.bind_map,
    Option.bind_eq_some_iff]
  constructor
  · rintro ⟨b, hb, h⟩
    rw [Function.comp_apply] at h
    split at h
    · next same =>
        have same : v a = b := hmk (eq_of_beq same)
        cases h
        exact ⟨a, rfl, hb.trans (congrArg some same.symm), rfl⟩
    · cases h
  · rintro ⟨a', same, hb, rfl⟩
    refine ⟨v a', hb, ?_⟩
    rw [Function.comp_apply, named same, if_pos BEq.rfl, same]
    rfl

/-- Both clues are followed, the second with the bindings that the first leaves. -/
theorem and (hp : Tells before p ⟨f, false⟩ middle) (hq : Tells middle q ⟨g, false⟩ after) :
    Tells before (p.and q) ⟨fun a t => f a t ∧ g a t, false⟩ after where
  settled h := by
    obtain ⟨h, hg⟩ := hq.settled h
    obtain ⟨h, hf⟩ := hp.settled h
    exact ⟨h, fun t ht => ⟨hf t ht.1, hg t ht.2⟩⟩
  test_eq_some_iff {a i recorded debug t d} := by
    rw [Predicate.value_test_and, Option.bind_eq_some_iff]
    constructor
    · rintro ⟨e, he, hd⟩
      obtain ⟨a', same, hf, rfl⟩ := hp.test_eq_some_iff.1 he
      obtain ⟨a'', same', hg, rfl⟩ := hq.test_eq_some_iff.1 hd
      obtain ⟨same', hf'⟩ := hp.settled same'
      exact ⟨a'', same'.trans same, ⟨hf' t hf, hg⟩, rfl⟩
    · rintro ⟨a', same, ⟨hf, hg⟩, rfl⟩
      exact ⟨_, hp.test_eq_some_iff.2 ⟨a', same, hf, rfl⟩, hq.test_eq_some_iff.2 ⟨a', rfl, hg, rfl⟩⟩

/-- What fits is recorded. -/
theorem recording (hp : Tells before p ⟨f, false⟩ after) :
    Tells before (p.and .recording) ⟨f, true⟩ after where
  settled := hp.settled
  test_eq_some_iff {a i recorded debug t d} := by
    rw [Predicate.value_test_and, Option.bind_eq_some_iff]
    constructor
    · rintro ⟨e, he, hd⟩
      obtain ⟨a', same, hf, rfl⟩ := hp.test_eq_some_iff.1 he
      exact ⟨a', same, hf, (Option.some.inj hd).symm⟩
    · rintro ⟨a', same, hf, rfl⟩
      exact ⟨_, hp.test_eq_some_iff.2 ⟨a', same, hf, rfl⟩, rfl⟩

end Tells

/-! ### Words

The bindings behind one predicate are those in front of the next.
-/

/-- A word of predicates follows clues, each with the bindings that those before it leave. -/
inductive TellsAll : (α → List (ℕ × ν)) → List (Predicate τ ν) → List (Clue α τ) →
    (α → List (ℕ × ν)) → Prop
  | nil {before} : TellsAll before [] [] before
  | cons {before middle after p word k clues} : Tells before p k middle →
      TellsAll middle word clues after → TellsAll before (p :: word) (k :: clues) after

/-- What the clues ask of the tokens, by what the names stand for. -/
def asks (clues : List (Clue α τ)) (a : α) : List (τ → Prop) := clues.map fun k => k.fits a

/-- What is recorded from the first clue on is the token there, if it is to be recorded, and then what is
recorded from the next clue on. -/
theorem map_some_eq_marks_cons {stream : List τ} {i : ℕ} {t : τ} (ht : stream[i]? = some t)
    (k : Clue α τ) (clues : List (Clue α τ)) (new : List τ) :
    new.map some = (marks (k :: clues) i).map (stream[·]?) ↔
      ∃ rest : List τ, rest.map some = (marks clues (i + 1)).map (stream[·]?) ∧
        new = if k.records then t :: rest else rest := by
  rw [marks]
  split
  · rw [List.map_cons, ht, List.map_eq_cons_iff]
    constructor
    · rintro ⟨t', rest, rfl, e, hrest⟩
      exact ⟨rest, hrest, by rw [Option.some.inj e]⟩
    · rintro ⟨rest, hrest, rfl⟩
      exact ⟨t, rest, rfl, rfl, hrest⟩
  · exact ⟨fun h => ⟨new, h, rfl⟩, fun ⟨rest, h, e⟩ => e ▸ h⟩

/-- What the clues ask is settled by the bindings afterwards. -/
theorem TellsAll.settled {before after : α → List (ℕ × ν)} {word : List (Predicate τ ν)}
    {clues : List (Clue α τ)} (h : TellsAll before word clues after) {a a' : α}
    (same : after a' = after a) {stream : List τ} :
    before a' = before a ∧
      ∀ i, Row stream i (asks clues a) → Row stream i (asks clues a') := by
  induction h with
  | nil => exact ⟨same, fun _ => id⟩
  | cons hp _ ih =>
      obtain ⟨same, rows⟩ := ih same
      obtain ⟨same, fits⟩ := hp.settled same
      exact ⟨same, fun i ⟨⟨t, ht, hfits⟩, row⟩ => ⟨⟨t, ht, fits t hfits⟩, rows (i + 1) row⟩⟩

/-! ### Rows

A row is a statement about consecutive positions of a stream.  These lemmas move it: along the stream, through a map
of the tokens, and past a token that no place of the row fits.
-/

/-- A row that is not empty lies within the stream. -/
theorem Row.lt_length {stream : List τ} {i : ℕ} {row : List (τ → Prop)} (h : Row stream i row)
    (hne : row ≠ []) : i < stream.length := by
  cases row with
  | nil => exact absurd rfl hne
  | cons fits row =>
      obtain ⟨⟨t, ht, -⟩, -⟩ := h
      exact (List.getElem?_eq_some_iff.1 ht).1

/-- Each property of a row belongs to a token of the stream. -/
theorem Row.exists_mem {stream : List τ} {i : ℕ} {row : List (τ → Prop)} (h : Row stream i row)
    {fits : τ → Prop} (hf : fits ∈ row) : ∃ t ∈ stream, fits t := by
  induction row generalizing i with
  | nil => exact absurd hf List.not_mem_nil
  | cons g row ih =>
      obtain ⟨⟨t, ht, hg⟩, rest⟩ := h
      rcases List.mem_cons.1 hf with rfl | hf
      · exact ⟨t, List.mem_of_getElem? ht, hg⟩
      · exact ih rest hf

/-- The whole row lies within the stream. -/
theorem Row.lt_length_of_lt {stream : List τ} {i k : ℕ} {row : List (τ → Prop)} (h : Row stream i row)
    (hk : k < i + row.length) (hi : i ≤ k) : k < stream.length := by
  induction row generalizing i with
  | nil =>
      rw [List.length_nil] at hk
      omega
  | cons fits row ih =>
      rcases Nat.eq_or_lt_of_le hi with rfl | hlt
      · exact h.lt_length (List.cons_ne_nil _ _)
      · refine ih h.2 ?_ hlt
        rw [List.length_cons] at hk
        omega

/-- Two rows at one place ask for the same tokens. -/
theorem Row.agree {stream : List τ} {i : ℕ} {row row' : List (τ → Prop)} (h : Row stream i row)
    (h' : Row stream i row') (same : row.length = row'.length) :
    List.Forall₂ (fun fits fits' => ∃ t, fits t ∧ fits' t) row row' := by
  induction row generalizing i row' with
  | nil =>
      rw [List.length_eq_zero_iff.1 same.symm]
      exact .nil
  | cons fits row ih =>
      cases row' with
      | nil => cases same
      | cons fits' row' =>
          obtain ⟨⟨t, ht, fit⟩, rest⟩ := h
          obtain ⟨⟨t', ht', fit'⟩, rest'⟩ := h'
          cases ht.symm.trans ht'
          exact .cons ⟨t, fit, fit'⟩ (ih rest rest' (Nat.succ.inj same))

/-- If what the image of a token is asked for comes to what the token is asked for, a row stands in the image of a
stream where it stands in the stream. -/
theorem Row.map_iff {τ' : Type} {f : τ → τ'} {row' : List (τ' → Prop)} {row : List (τ → Prop)}
    (alike : List.Forall₂ (fun fits' fits => ∀ t, fits' (f t) ↔ fits t) row' row) {stream : List τ} {i : ℕ} :
    Row (stream.map f) i row' ↔ Row stream i row := by
  induction alike generalizing i with
  | nil => exact Iff.rfl
  | cons h _ ih =>
      rw [Row, Row, ih]
      refine and_congr_left fun _ => ?_
      simp only [List.getElem?_map, Option.map_eq_some_iff]
      constructor
      · rintro ⟨-, ⟨t, ht, rfl⟩, fit⟩
        exact ⟨t, ht, (h t).1 fit⟩
      · rintro ⟨t, ht, fit⟩
        exact ⟨_, ⟨t, ht, rfl⟩, (h t).2 fit⟩

/-- A token at a position of two streams with another one between them. -/
theorem getElem?_append_cons_eq_some_iff {p s : List τ} {x t : τ} {i : ℕ} :
    (p ++ x :: s)[i]? = some t ↔
      p[i]? = some t ∨ (i = p.length ∧ x = t) ∨ ∃ k, i = p.length + 1 + k ∧ s[k]? = some t := by
  rcases Nat.lt_trichotomy i p.length with h | rfl | h
  · rw [List.getElem?_append_left h]
    refine ⟨.inl, ?_⟩
    rintro (ht | ⟨rfl, -⟩ | ⟨k, rfl, -⟩)
    · exact ht
    · omega
    · omega
  · rw [List.getElem?_append_right Nat.le.refl, Nat.sub_self, List.getElem?_cons_zero]
    refine ⟨fun ht => .inr (.inl ⟨rfl, Option.some.inj ht⟩), ?_⟩
    rintro (ht | ⟨-, rfl⟩ | ⟨k, hk, -⟩)
    · rw [List.getElem?_eq_none Nat.le.refl] at ht
      cases ht
    · rfl
    · omega
  · obtain ⟨k, rfl⟩ := Nat.exists_eq_add_of_lt h
    have behind : p.length + k + 1 - p.length = k + 1 := by omega
    rw [List.getElem?_append_right h.le, behind, List.getElem?_cons_succ]
    refine ⟨fun ht => .inr (.inr ⟨k, by omega, ht⟩), ?_⟩
    rintro (ht | ⟨hk, -⟩ | ⟨k', hk, ht⟩)
    · rw [List.getElem?_eq_none (by omega)] at ht
      cases ht
    · omega
    · have : k = k' := by omega
      exact this ▸ ht

/-- **A row does not reach over a token that fits nothing in it:** it lies before the token or behind it. -/
theorem Row.append_cons_iff {p s : List τ} {x : τ} {row : List (τ → Prop)}
    (barred : ∀ fits ∈ row, ¬fits x) (hne : row ≠ []) {i : ℕ} :
    Row (p ++ x :: s) i row ↔ Row p i row ∨ ∃ k, i = p.length + 1 + k ∧ Row s k row := by
  induction row generalizing i with
  | nil => exact absurd rfl hne
  | cons fits row ih =>
      have first : (∃ t, (p ++ x :: s)[i]? = some t ∧ fits t) ↔
          (∃ t, p[i]? = some t ∧ fits t) ∨ ∃ k, i = p.length + 1 + k ∧ ∃ t, s[k]? = some t ∧ fits t := by
        simp only [getElem?_append_cons_eq_some_iff]
        constructor
        · rintro ⟨t, ht | ⟨-, rfl⟩ | ⟨k, hk, ht⟩, hfits⟩
          · exact .inl ⟨t, ht, hfits⟩
          · exact absurd hfits (barred fits List.mem_cons_self)
          · exact .inr ⟨k, hk, t, ht, hfits⟩
        · rintro (⟨t, ht, hfits⟩ | ⟨k, hk, t, ht, hfits⟩)
          · exact ⟨t, .inl ht, hfits⟩
          · exact ⟨t, .inr (.inr ⟨k, hk, ht⟩), hfits⟩
      rw [Row, first]
      by_cases hrow : row = []
      · subst hrow
        simp only [Row, and_true]
      · rw [ih (fun g hg => barred g (List.mem_cons_of_mem _ hg)) hrow]
        constructor
        · rintro ⟨⟨t, ht, hfits⟩ | ⟨k, rfl, t, ht, hfits⟩, hrest | ⟨l, hl, hrest⟩⟩
          · exact .inl ⟨⟨t, ht, hfits⟩, hrest⟩
          · -- The next token stands behind `x`, so this one is `x` itself.
            have inside := (List.getElem?_eq_some_iff.1 ht).1
            omega
          · have inside := hrest.lt_length hrow
            omega
          · have : l = k + 1 := by omega
            exact .inr ⟨k, rfl, ⟨t, ht, hfits⟩, this ▸ hrest⟩
        · rintro (⟨head, hrest⟩ | ⟨k, rfl, head, hrest⟩)
          · exact ⟨.inl head, .inl hrest⟩
          · exact ⟨.inr ⟨k, rfl, head⟩, .inr ⟨k + 1, by omega, hrest⟩⟩

/-! ### From words to rows -/

/-- **A word leads on exactly if the names can be given a sense in which token after token fits**, and then
to the bindings of that sense, with the tokens recorded that the clues mark. -/
theorem TellsAll.walk_eq_some_iff {before after : α → List (ℕ × ν)} {word : List (Predicate τ ν)}
    {clues : List (Clue α τ)} (h : TellsAll before word clues after) {ignores : Predicate τ ν}
    {stream : List τ} (plain : Plain ignores stream) {a : α} {i : ℕ} {recorded : List τ} {debug : Bool}
    {d : Context τ ν} :
    walk ignores stream word ⟨i, before a, recorded, debug⟩ = some d ↔
      ∃ a', before a' = before a ∧ Row stream i (asks clues a') ∧
        ∃ new : List τ, new.map some = (marks clues i).map (stream[·]?) ∧
          d = ⟨i + clues.length, after a', recorded ++ new, debug⟩ := by
  induction h generalizing a i recorded d with
  | nil =>
      rw [walk_nil]
      constructor
      · rintro h
        exact ⟨a, rfl, trivial, [], rfl, by rw [List.append_nil]; exact (Option.some.inj h).symm⟩
      · rintro ⟨a', same, -, new, hnew, rfl⟩
        rw [List.map_eq_nil_iff.1 hnew, List.append_nil, same]
        rfl
  | @cons before middle after p word k clues hp hw ih =>
      rw [plain.walk_cons, Option.bind_eq_some_iff]
      simp only [Option.bind_eq_some_iff, hp.test_eq_some_iff]
      have next : i + (k :: clues).length = i + 1 + clues.length := by
        rw [List.length_cons]
        omega
      have behind : ∀ (t : τ) (rest : List τ),
          (if k.records then recorded ++ [t] else recorded) ++ rest =
            recorded ++ if k.records then t :: rest else rest := by
        intro t rest
        cases k.records
        · rfl
        · exact List.append_assoc _ _ _
      constructor
      · rintro ⟨t, ht, e, ⟨a', same, fits, rfl⟩, he⟩
        obtain ⟨a'', same', row, rest, hrest, rfl⟩ := ih.1 he
        obtain ⟨same', fits'⟩ := hp.settled same'
        refine ⟨a'', same'.trans same, ⟨⟨t, ht, fits' t fits⟩, row⟩, _,
          (map_some_eq_marks_cons ht k clues _).2 ⟨rest, hrest, rfl⟩, ?_⟩
        rw [next, ← behind]
      · rintro ⟨a', same, ⟨⟨t, ht, fits⟩, row⟩, new, hnew, rfl⟩
        obtain ⟨rest, hrest, rfl⟩ := (map_some_eq_marks_cons ht k clues new).1 hnew
        refine ⟨t, ht, _, ⟨a', same, fits, rfl⟩, ih.2 ⟨a', rfl, row, rest, hrest, ?_⟩⟩
        rw [next, ← behind]

end Sequence
end LoopPlumbing
