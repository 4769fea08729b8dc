/- # Matching

Matching explores every way in which a pattern fits a stream: `Pattern.ends` takes a context to the
list of contexts in which the pattern can end, without removing repeats.  Tokens that the options
ignore are passed over before each token of the pattern.

The order of the list is fixed.  `seq` goes on from each end of the first pattern in turn, `alt` lists
the ends of the left pattern first, and `star` lists a context before those reached from it by one more
round, taking the ends of that round from the last to the first.

A round counts only if it moves the cursor forward, so the number of tokens left bounds the number of
rounds.
-/

import LoopPlumbing.Sequence.Pattern

namespace LoopPlumbing
namespace Sequence

variable {τ ν : Type}

/-! ### Options -/

/-- How a pattern is laid against a stream. -/
structure Options (τ ν : Type) where
  /-- Tokens to be passed over, tested in a fresh context. -/
  ignores : Predicate τ ν
  /-- Whether the match may start at every token and stop at any; otherwise it spans the stream. -/
  scanAllOffsets : Bool
  /-- Whether every match is traced. -/
  debug : Bool

namespace Options

/-- Nothing is ignored, every start is tried, nothing is traced. -/
def default : Options τ ν := ⟨.never, true, false⟩

/-- The options, as a text for diagnosis. -/
def describe (o : Options τ ν) : String :=
  "QueryParams \x7b scan_all_offsets: " ++ toString o.scanAllOffsets ++
    ", debug: " ++ toString o.debug ++ ", .. \x7d"

end Options

/-! ### Tokens that are passed over

Whether a token is passed over is decided in the starting context, whatever the match has bound by then.
-/

/-- Runs a predicate, marking what it reports. -/
def runTest (p : Predicate τ ν) (c : Context τ ν) (t : τ) : Logged (Event τ) (Option (Context τ ν)) :=
  (p.test c t).mapEvents .reported

/-- Marking what a predicate reports leaves its verdict as it is. -/
@[simp] theorem value_runTest (p : Predicate τ ν) (c : Context τ ν) (t : τ) :
    (runTest p c t).value = (p.test c t).value := rfl

/-- What a predicate reports is marked as such. -/
@[simp] theorem events_runTest (p : Predicate τ ν) (c : Context τ ν) (t : τ) :
    (runTest p c t).events = (p.test c t).events.map .reported := rfl

/-- Whether a token is passed over. -/
def isIgnored (ignores : Predicate τ ν) (t : τ) : Logged (Event τ) Bool :=
  (·.isSome) <$> runTest ignores Context.start t

/-- How many tokens at the front of a stream are passed over. -/
def leadingIgnored (ignores : Predicate τ ν) : List τ → Logged (Event τ) Nat
  | [] => pure 0
  | t :: ts => do
    if ← isIgnored ignores t then (· + 1) <$> leadingIgnored ignores ts else pure 0

/-- The first position from `position` on whose token is not passed over. -/
def skipIgnored (ignores : Predicate τ ν) (stream : List τ) (position : Nat) : Logged (Event τ) Nat :=
  (position + ·) <$> leadingIgnored ignores (stream.drop position)

/-- As many tokens are passed over as come before the first that is not. -/
@[simp] theorem value_leadingIgnored (ignores : Predicate τ ν) (ts : List τ) :
    (leadingIgnored ignores ts).value =
      (ts.takeWhile fun t => (isIgnored ignores t).value).length := by
  induction ts with
  | nil => rfl
  | cons t ts ih =>
    rw [leadingIgnored, Logged.value_bind, List.takeWhile_cons]
    cases (isIgnored ignores t).value
    · rfl
    · simpa using ih

/-- How far the cursor moves over tokens that are passed over. -/
@[simp] theorem value_skipIgnored (ignores : Predicate τ ν) (stream : List τ) (position : Nat) :
    (skipIgnored ignores stream position).value =
      position + ((stream.drop position).takeWhile fun t => (isIgnored ignores t).value).length := by
  rw [skipIgnored, Logged.value_map, value_leadingIgnored]

/-! ### One token -/

/-- Where one token of a pattern can end: behind the next token that is not passed over, if that token
satisfies the predicate. -/
def tokenEnds (ignores : Predicate τ ν) (stream : List τ) (p : Predicate τ ν) (c : Context τ ν) :
    Logged (Event τ) (List (Context τ ν)) := do
  let position ← skipIgnored ignores stream c.position
  match stream[position]? with
  | none => pure []
  | some t =>
    let result ← runTest p (c.moveTo position) t
    Logged.emitIf c.debug (.tokenTested position t result.isSome)
    pure (result.map (·.moveTo (position + 1))).toList

/-- A token ends where the predicate leads, one position behind the token that it tested. -/
theorem mem_value_tokenEnds {ignores : Predicate τ ν} {stream : List τ} {p : Predicate τ ν}
    {c d : Context τ ν} :
    d ∈ (tokenEnds ignores stream p c).value ↔
      ∃ t e, stream[(skipIgnored ignores stream c.position).value]? = some t ∧
        (p.test (c.moveTo (skipIgnored ignores stream c.position).value) t).value = some e ∧
        d = e.moveTo ((skipIgnored ignores stream c.position).value + 1) := by
  rw [tokenEnds, Logged.value_bind]
  generalize (skipIgnored ignores stream c.position).value = position
  cases stream[position]? with
  | none => simp
  | some t =>
    simp only [Logged.value_bind, value_runTest]
    cases h : (p.test (c.moveTo position) t).value with
    | none => simp [h]
    | some e =>
      refine ⟨fun hd => ⟨t, e, rfl, h, List.mem_singleton.1 hd⟩, ?_⟩
      rintro ⟨t', e', ht, he, rfl⟩
      cases ht
      cases h.symm.trans he
      exact List.mem_singleton_self _

/-! ### Rounds of a repetition

A round that leaves the cursor where it was is dropped.  The number of rounds needs a bound to be a
recursion on a number; the length of the stream is one, since each round takes a token.
-/

/-- The ends of a round that lie beyond its start, from the last to the first. -/
def advances (c : Context τ ν) (ends : List (Context τ ν)) : List (Context τ ν) :=
  (ends.filter (c.position < ·.position)).reverse

/-- A round counts if it ends beyond its start. -/
theorem mem_advances {c d : Context τ ν} {ends : List (Context τ ν)} :
    d ∈ advances c ends ↔ d ∈ ends ∧ c.position < d.position := by
  simp [advances]

/-- Where at most `n` rounds can end, the context itself first. -/
def rounds (body : Context τ ν → Logged (Event τ) (List (Context τ ν))) :
    Nat → Context τ ν → Logged (Event τ) (List (Context τ ν))
  | 0, c => pure [c]
  | n + 1, c => do
    let ends ← body c
    (c :: ·) <$> Logged.gather (advances c ends) (rounds body n)

/-- With no rounds allowed the context is the only one. -/
@[simp] theorem value_rounds_zero (body : Context τ ν → Logged (Event τ) (List (Context τ ν)))
    (c : Context τ ν) : (rounds body 0 c).value = [c] := rfl

/-- One round more: the context itself, and whatever is reached from where a round has led. -/
@[simp] theorem value_rounds_succ (body : Context τ ν → Logged (Event τ) (List (Context τ ν))) (n : Nat)
    (c : Context τ ν) :
    (rounds body (n + 1) c).value =
      c :: (advances c (body c).value).flatMap fun d => (rounds body n d).value := by
  rw [rounds, Logged.value_bind, Logged.value_map, Logged.value_gather]

/-- Every context in which the pattern can end if it starts in the given one. -/
def Pattern.ends (ignores : Predicate τ ν) (stream : List τ) :
    Pattern τ ν → Context τ ν → Logged (Event τ) (List (Context τ ν))
  | .token p, c => tokenEnds ignores stream p c
  | .seq a b, c => do
    let middle ← a.ends ignores stream c
    Logged.gather middle (b.ends ignores stream)
  | .alt a b, c => do
    let left ← a.ends ignores stream c
    let right ← b.ends ignores stream c
    pure (left ++ right)
  | .star a, c => rounds (a.ends ignores stream) (stream.length - c.position + 1) c

section Values

variable (ignores : Predicate τ ν) (stream : List τ) (c : Context τ ν)

/-- A token ends where its predicate leads. -/
@[simp] theorem value_ends_token (p : Predicate τ ν) :
    ((Pattern.token p).ends ignores stream c).value = (tokenEnds ignores stream p c).value := rfl

/-- A sequence ends where its second pattern ends, started from each end of the first. -/
@[simp] theorem value_ends_seq (a b : Pattern τ ν) :
    ((a.seq b).ends ignores stream c).value =
      (a.ends ignores stream c).value.flatMap fun d => (b.ends ignores stream d).value := by
  rw [Pattern.ends, Logged.value_bind, Logged.value_gather]

/-- An alternation ends where either pattern ends, the left one first. -/
@[simp] theorem value_ends_alt (a b : Pattern τ ν) :
    ((a.alt b).ends ignores stream c).value =
      (a.ends ignores stream c).value ++ (b.ends ignores stream c).value := rfl

/-- A repetition ends where its rounds can end. -/
@[simp] theorem value_ends_star (a : Pattern τ ν) :
    (a.star.ends ignores stream c).value =
      (rounds (a.ends ignores stream) (stream.length - c.position + 1) c).value := rfl

end Values

/-! ### Searching -/

/-- Every match that starts at some token that is not passed over; what follows it is free, so the
cursor is left at the end of the stream. -/
def Pattern.scan (q : Pattern τ ν) (ignores : Predicate τ ν) (stream : List τ) (c : Context τ ν) :
    Logged (Event τ) (List (Context τ ν)) :=
  Logged.gather (List.range (stream.length + 1)) fun offset => do
    let passed ← match stream[offset]? with
      | some t => isIgnored ignores t
      | none => pure false
    if passed then pure []
    else (·.map (·.moveTo stream.length)) <$> q.ends ignores stream (c.moveTo offset)

/-- Every match that spans the stream. -/
def Pattern.span (q : Pattern τ ν) (ignores : Predicate τ ν) (stream : List τ) (c : Context τ ν) :
    Logged (Event τ) (List (Context τ ν)) := do
  let start ← skipIgnored ignores stream 0
  let found ← q.ends ignores stream (c.moveTo start)
  Logged.select (fun d => (· == stream.length) <$> skipIgnored ignores stream d.position) found

/-- A pattern that passed the check, with the options that it is matched under. -/
structure Matcher (τ ν : Type) where
  pattern : Pattern τ ν
  options : Options τ ν
  checked : ∃ bound, pattern.check [] = .ok bound

/-- Checks a pattern. -/
def Pattern.compile (q : Pattern τ ν) (options : Options τ ν) : Except Fault (Matcher τ ν) :=
  match h : q.check [] with
  | .ok bound => .ok ⟨q, options, bound, h⟩
  | .error fault => .error fault

namespace Matcher

/-- Every match of the stream that starts from the bindings and recordings of `c`. -/
def contexts (m : Matcher τ ν) (stream : List τ) (c : Context τ ν) :
    Logged (Event τ) (List (Context τ ν)) :=
  let c := if m.options.debug then c.withDebug true else c
  if m.options.scanAllOffsets then m.pattern.scan m.options.ignores stream c
  else m.pattern.span m.options.ignores stream c

/-- Whether the stream has a match that starts from nothing. -/
def accepts (m : Matcher τ ν) (stream : List τ) : Logged (Event τ) Bool :=
  (!·.isEmpty) <$> m.contexts stream Context.start

/-- The matcher, as a text for diagnosis. -/
def describe (m : Matcher τ ν) : String :=
  "SequenceMatcher \x7b root: " ++ m.pattern.shape ++ ", params: " ++ m.options.describe ++ " \x7d"

end Matcher
end Sequence
end LoopPlumbing
