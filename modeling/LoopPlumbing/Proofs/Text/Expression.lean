/- # Regular expressions

Expressions over characters, with repetition, options and groups.  `Expression.readings` lists every way in which an
expression reads the front of a text, the preferred ones first: a repetition prefers more rounds, and an option
prefers to be taken.  Either the whole text is to be read (`whole?`), or a reading is searched for that starts as far
left as possible (`find?`, `findAll`); of those that qualify the preferred one is taken.

What an expression can read at all has a plain description (`Expression.Reads`), by recursion on the expression and
without rounds to count, and the readings of a text are the ways to divide it into something that can be read and a
rest (`mem_readings_iff`).  Where a text can be read in one way only, preference does not matter and the description
settles what is found.

Captures are kept in the order in which they end, the last one first, and a group that was read several times
answers with its last reading.  Repetition is cut off after as many rounds as there are characters; a round that
reads nothing is not made at all.
-/

import Mathlib.Data.List.Basic

namespace LoopPlumbing
namespace Text

/-- Regular expressions over characters. -/
inductive Expression where
  /-- One character of a class. -/
  | one (p : Char → Bool)
  | seq (a b : Expression)
  /-- Any number of rounds. -/
  | star (e : Expression)
  | optional (e : Expression)
  /-- Remembers under a number what was read. -/
  | group (n : Nat) (e : Expression)

/-- What groups have read, the latest first. -/
abbrev Groups := List (Nat × List Char)

/-- A text that was read, the text that is left, and what the groups have read. -/
structure Match where
  text : List Char
  rest : List Char
  groups : Groups
deriving DecidableEq

namespace Match

/-- Nothing was read. -/
def empty (cs : List Char) : Match := ⟨[], cs, []⟩

/-- Reads on. -/
def append (m n : Match) : Match := ⟨m.text ++ n.text, n.rest, n.groups ++ m.groups⟩

/-- What a group read, if it took part. -/
def group? (m : Match) (n : Nat) : Option (List Char) := m.groups.lookup n

end Match

namespace Expression

/-- At most a number of rounds, more being preferred.  A round that reads nothing does not count. -/
def rounds (step : List Char → List Match) : Nat → List Char → List Match
  | 0, cs => [.empty cs]
  | n + 1, cs =>
    ((step cs).filter fun m => m.text ≠ []).flatMap (fun m => (rounds step n m.rest).map m.append) ++
      [.empty cs]

/-- Every reading of the front of a text, the preferred ones first. -/
def readings : Expression → List Char → List Match
  | one _, [] => []
  | one p, c :: cs => if p c then [⟨[c], cs, []⟩] else []
  | seq a b, cs => (a.readings cs).flatMap fun m => (b.readings m.rest).map m.append
  -- No text has room for more rounds than it has characters.
  | star e, cs => rounds e.readings cs.length cs
  | optional e, cs => e.readings cs ++ [.empty cs]
  | group n e, cs => (e.readings cs).map fun m => ⟨m.text, m.rest, (n, m.text) :: m.groups⟩

/-- At least one round. -/
def plus (e : Expression) : Expression := .seq e (.star e)

/-- One given character. -/
def char (c : Char) : Expression := .one (· = c)

/-- The preferred reading of a whole text, which is what an expression finds between `^` and `$`. -/
def whole? (e : Expression) (cs : List Char) : Option Match := (e.readings cs).find? fun m => m.rest = []

/-- The preferred one of the leftmost readings. -/
def find? (e : Expression) : List Char → Option Match
  | [] => (e.readings []).head?
  | c :: cs => (e.readings (c :: cs)).head?.or (e.find? cs)

/-- At most a number of matches, each searched for behind the one before.  A match without characters is the last. -/
def findUpTo (e : Expression) : Nat → List Char → List Match
  | 0, _ => []
  | n + 1, cs =>
    match e.find? cs with
    | none => []
    | some m => m :: if m.text = [] then [] else e.findUpTo n m.rest

/-- The matches in a text, one behind the other. -/
def findAll (e : Expression) (cs : List Char) : List Match := e.findUpTo (cs.length + 1) cs

/-- What an expression can read, and what its groups read then. -/
def Reads : Expression → List Char → Groups → Prop
  | one p, t, g => ∃ c, p c = true ∧ t = [c] ∧ g = []
  | seq a b, t, g => ∃ t₁ g₁ t₂ g₂, a.Reads t₁ g₁ ∧ b.Reads t₂ g₂ ∧ t = t₁ ++ t₂ ∧ g = g₂ ++ g₁
  | star e, t, g =>
    ∃ rs : List (List Char × Groups), (∀ r ∈ rs, r.1 ≠ [] ∧ e.Reads r.1 r.2) ∧
      t = rs.flatMap (·.1) ∧ g = rs.reverse.flatMap (·.2)
  | optional e, t, g => e.Reads t g ∨ t = [] ∧ g = []
  | group n e, t, g => ∃ g', e.Reads t g' ∧ g = (n, t) :: g'

/-! ### Rounds

A round that reads nothing ends the repetition, so each round takes at least one character and as many rounds as there
are characters are enough.
-/

section Rounds

variable {step : List Char → List Match} {P : List Char → Groups → Prop}

/-- One round more: a step that reads something and then rounds, or no round at all. -/
theorem mem_rounds_succ {n : Nat} {cs : List Char} {m : Match} :
    m ∈ rounds step (n + 1) cs ↔
      (∃ x ∈ step cs, x.text ≠ [] ∧ ∃ y ∈ rounds step n x.rest, m = x.append y) ∨ m = .empty cs := by
  simp only [rounds, List.mem_append, List.mem_flatMap, List.mem_filter, List.mem_map, List.mem_singleton,
    decide_eq_true_eq, and_assoc, @eq_comm _ _ m]

/-- As many rounds as there are characters read whatever any number of rounds can read. -/
theorem mem_rounds_iff (hstep : ∀ {cs m}, m ∈ step cs ↔ m.text ++ m.rest = cs ∧ P m.text m.groups)
    {n : Nat} {cs : List Char} {m : Match} (bound : cs.length ≤ n) :
    m ∈ rounds step n cs ↔
      m.text ++ m.rest = cs ∧ ∃ rs : List (List Char × Groups), (∀ r ∈ rs, r.1 ≠ [] ∧ P r.1 r.2) ∧
        m.text = rs.flatMap (·.1) ∧ m.groups = rs.reverse.flatMap (·.2) := by
  constructor
  · intro h
    clear bound
    induction n generalizing cs m with
    | zero =>
        obtain rfl := List.mem_singleton.1 h
        exact ⟨rfl, [], nofun, rfl, rfl⟩
    | succ n ih =>
        obtain ⟨x, hx, ne, y, hy, rfl⟩ | rfl := mem_rounds_succ.1 h
        · obtain ⟨parts, reads⟩ := hstep.1 hx
          obtain ⟨parts', rs, all, text, groups⟩ := ih hy
          refine ⟨?_, (x.text, x.groups) :: rs, List.forall_mem_cons.2 ⟨⟨ne, reads⟩, all⟩, ?_, ?_⟩
          · rw [Match.append, List.append_assoc, parts', parts]
          · rw [Match.append, text, List.flatMap_cons]
          · simp [Match.append, groups]
        · exact ⟨rfl, [], nofun, rfl, rfl⟩
  · obtain ⟨t, rest, g⟩ := m
    dsimp only
    rintro ⟨rfl, rs, all, rfl, rfl⟩
    induction rs generalizing n with
    | nil =>
        cases n with
        | zero => exact List.mem_singleton_self _
        | succ n => exact mem_rounds_succ.2 (.inr rfl)
    | cons r rs ih =>
        obtain ⟨⟨ne, reads⟩, all⟩ := List.forall_mem_cons.1 all
        have pos : 0 < r.1.length := List.length_pos_iff.2 ne
        simp only [List.flatMap_cons, List.append_assoc, List.length_append] at bound ⊢
        cases n with
        | zero => omega
        | succ n =>
            have first : ⟨r.1, rs.flatMap (·.1) ++ rest, r.2⟩ ∈ step (r.1 ++ (rs.flatMap (·.1) ++ rest)) :=
              hstep.2 ⟨rfl, reads⟩
            have others : ⟨rs.flatMap (·.1), rest, rs.reverse.flatMap (·.2)⟩ ∈
                rounds step n (rs.flatMap (·.1) ++ rest) :=
              ih all (by rw [List.length_append]; omega)
            refine mem_rounds_succ.2 (.inl ⟨_, first, ne, _, others, ?_⟩)
            simp [Match.append]

end Rounds

variable {e : Expression} {p : Char → Bool} {cs t : List Char} {m : Match} {g : Groups}

/-- **A reading divides the text into something that the expression can read and a rest.** -/
theorem mem_readings_iff : m ∈ e.readings cs ↔ m.text ++ m.rest = cs ∧ e.Reads m.text m.groups := by
  induction e generalizing cs m with
  | one p =>
      obtain ⟨t, rest, g⟩ := m
      cases cs with
      | nil =>
          constructor
          · nofun
          · rintro ⟨parts, c, -, rfl, -⟩
            cases parts
      | cons c cs =>
          simp only [readings, Reads, List.mem_ite_nil_right, List.mem_singleton, Match.mk.injEq]
          constructor
          · rintro ⟨inside, rfl, rfl, rfl⟩
            exact ⟨rfl, c, inside, rfl, rfl⟩
          · rintro ⟨parts, c', inside, rfl, rfl⟩
            cases parts
            exact ⟨inside, rfl, rfl, rfl⟩
  | seq a b iha ihb =>
      simp only [readings, List.mem_flatMap, List.mem_map]
      constructor
      · rintro ⟨x, hx, y, hy, rfl⟩
        obtain ⟨parts, reads⟩ := iha.1 hx
        obtain ⟨parts', reads'⟩ := ihb.1 hy
        refine ⟨?_, x.text, x.groups, y.text, y.groups, reads, reads', rfl, rfl⟩
        rw [Match.append, List.append_assoc, parts', parts]
      · obtain ⟨t, rest, g⟩ := m
        rintro ⟨rfl, t₁, g₁, t₂, g₂, reads, reads', rfl, rfl⟩
        exact ⟨⟨t₁, t₂ ++ rest, g₁⟩, iha.2 ⟨(List.append_assoc _ _ _).symm, reads⟩,
          ⟨t₂, rest, g₂⟩, ihb.2 ⟨rfl, reads'⟩, rfl⟩
  | star e ih => exact mem_rounds_iff ih (Nat.le_refl _)
  | optional e ih =>
      obtain ⟨t, rest, g⟩ := m
      simp only [readings, Reads, List.mem_append, List.mem_singleton, ih, Match.empty, Match.mk.injEq]
      constructor
      · rintro (⟨parts, reads⟩ | ⟨rfl, rfl, rfl⟩)
        · exact ⟨parts, .inl reads⟩
        · exact ⟨rfl, .inr ⟨rfl, rfl⟩⟩
      · rintro ⟨parts, reads | ⟨rfl, rfl⟩⟩
        · exact .inl ⟨parts, reads⟩
        · exact .inr ⟨rfl, parts, rfl⟩
  | group n e ih =>
      simp only [readings, List.mem_map]
      constructor
      · rintro ⟨x, hx, rfl⟩
        obtain ⟨parts, reads⟩ := ih.1 hx
        exact ⟨parts, x.groups, reads, rfl⟩
      · obtain ⟨t, rest, g⟩ := m
        dsimp only
        rintro ⟨parts, g', reads, rfl⟩
        exact ⟨⟨t, rest, g'⟩, ih.2 ⟨parts, reads⟩, rfl⟩

/-! ### What expressions read

Descriptions of parts make up descriptions of the whole; the lemmas follow the constructors.
-/

section Description

/-- One text behind another is read by one expression behind another; the groups read last stand in front. -/
theorem Reads.seq {a b : Expression} {t₁ t₂ : List Char} {g₁ g₂ : Groups} (ha : a.Reads t₁ g₁)
    (hb : b.Reads t₂ g₂) : (Expression.seq a b).Reads (t₁ ++ t₂) (g₂ ++ g₁) :=
  ⟨t₁, g₁, t₂, g₂, ha, hb, rfl, rfl⟩

/-- A group reads what its expression does and records it under its number. -/
theorem Reads.group {n : Nat} (h : e.Reads t g) : (Expression.group n e).Reads t ((n, t) :: g) :=
  ⟨g, h, rfl⟩

/-- A character reads itself. -/
theorem Reads.char (c : Char) : (Expression.char c).Reads [c] [] := ⟨c, decide_eq_true rfl, rfl, rfl⟩

/-- A character reads itself and nothing else. -/
theorem reads_char {c : Char} : (char c).Reads t g ↔ t = [c] ∧ g = [] := by
  simp [char, Reads]

/-- **Rounds that read no groups** read a sequence of whatever one round can read. -/
theorem reads_star_iff {α : Type} {f : α → List Char} {V : α → Prop}
    (round : ∀ {t g}, e.Reads t g ↔ (∃ x, V x ∧ t = f x) ∧ g = []) (ne : ∀ x, V x → f x ≠ []) :
    (star e).Reads t g ↔ (∃ xs : List α, (∀ x ∈ xs, V x) ∧ t = xs.flatMap f) ∧ g = [] := by
  constructor
  · rintro ⟨rs, all, rfl, rfl⟩
    have silent : ∀ r ∈ rs, r.2 = [] := fun r hr => (round.1 (all r hr).2).2
    refine ⟨?_, by simpa using silent⟩
    clear silent
    induction rs with
    | nil => exact ⟨[], nofun, rfl⟩
    | cons r rs ih =>
        obtain ⟨⟨-, reads⟩, all⟩ := List.forall_mem_cons.1 all
        obtain ⟨x, valid, text⟩ := (round.1 reads).1
        obtain ⟨xs, valids, texts⟩ := ih all
        refine ⟨x :: xs, List.forall_mem_cons.2 ⟨valid, valids⟩, ?_⟩
        rw [List.flatMap_cons, List.flatMap_cons, text, texts]
  · rintro ⟨⟨xs, valids, rfl⟩, rfl⟩
    refine ⟨xs.map fun x => (f x, []), List.forall_mem_map.2 fun x hx => ?_, ?_, ?_⟩
    · exact ⟨ne x (valids x hx), round.2 ⟨⟨x, valids x hx, rfl⟩, rfl⟩⟩
    · rw [List.flatMap_map]
    · simp

/-- The repetition of a class reads any run of it. -/
theorem reads_star_one : (star (one p)).Reads t g ↔ (∀ c ∈ t, p c = true) ∧ g = [] := by
  have round : ∀ {t g}, (one p).Reads t g ↔ (∃ c, p c = true ∧ t = [c]) ∧ g = [] := by
    simp only [Reads, ← and_assoc, exists_and_right, implies_true]
  rw [reads_star_iff round fun c _ => List.cons_ne_nil c []]
  simp

/-- A repetition that may not be empty reads any run of a class that is not empty. -/
theorem reads_plus_one : (plus (one p)).Reads t g ↔ t ≠ [] ∧ (∀ c ∈ t, p c = true) ∧ g = [] := by
  constructor
  · rintro ⟨t₁, g₁, t₂, g₂, ⟨c, first, rfl, rfl⟩, others, rfl, rfl⟩
    obtain ⟨inside, rfl⟩ := reads_star_one.1 others
    exact ⟨List.cons_ne_nil _ _, List.forall_mem_cons.2 ⟨first, inside⟩, rfl⟩
  · rintro ⟨ne, inside, rfl⟩
    cases t with
    | nil => exact absurd rfl ne
    | cons c t =>
        obtain ⟨first, inside⟩ := List.forall_mem_cons.1 inside
        exact ⟨[c], [], t, [], ⟨c, first, rfl, rfl⟩, reads_star_one.2 ⟨inside, rfl⟩, rfl, rfl⟩

end Description

section Searching

/-- A whole text is found if it can be read. -/
theorem isSome_whole?_iff : (e.whole? cs).isSome ↔ ∃ g, e.Reads cs g := by
  rw [whole?, List.find?_isSome]
  constructor
  · rintro ⟨⟨t, rest, g⟩, hm, ends⟩
    obtain ⟨rfl, reads⟩ := mem_readings_iff.1 hm
    obtain rfl : rest = [] := of_decide_eq_true ends
    exact ⟨g, (List.append_nil t).symm ▸ reads⟩
  · rintro ⟨g, reads⟩
    exact ⟨⟨cs, [], g⟩, mem_readings_iff.2 ⟨List.append_nil _, reads⟩, rfl⟩

/-- A whole text that can be read in one way only is found with the groups of that way. -/
theorem whole?_eq_of_forall (reads : e.Reads cs g) (only : ∀ g', e.Reads cs g' → g' = g) :
    e.whole? cs = some ⟨cs, [], g⟩ := by
  obtain ⟨⟨t, rest, g'⟩, found⟩ := Option.isSome_iff_exists.1 (isSome_whole?_iff.2 ⟨g, reads⟩)
  obtain ⟨parts, reads'⟩ := mem_readings_iff.1 (List.mem_of_find?_eq_some found)
  have ends := List.find?_some found
  obtain rfl : rest = [] := of_decide_eq_true ends
  obtain rfl : t = cs := (List.append_nil t).symm.trans parts
  rw [found, only g' reads']

/-- A search finds what is read in one way only. -/
theorem find?_eq_of_forall_mem (h : m ∈ e.readings cs) (only : ∀ x ∈ e.readings cs, x = m) :
    e.find? cs = some m := by
  have first : (e.readings cs).head? = some m := by
    cases readings : e.readings cs with
    | nil => exact absurd (readings ▸ h) List.not_mem_nil
    | cons x rest => rw [List.head?_cons, only x (readings ▸ List.mem_cons_self)]
  cases cs with
  | nil => exact first
  | cons c cs => rw [find?, first, Option.some_or]

/-- A search goes past a character at which nothing can be read. -/
theorem find?_cons_of_readings_eq_nil {c : Char} (h : e.readings (c :: cs) = []) :
    e.find? (c :: cs) = e.find? cs := by
  rw [find?, h, List.head?_nil, Option.none_or]

end Searching

end Expression
end Text
end LoopPlumbing
