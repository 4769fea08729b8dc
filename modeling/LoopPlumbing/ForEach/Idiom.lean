/- # The idioms of a for-each loop

A loop over the elements of a collection or an array is compiled to one of four shapes: an iterator or a
counter, and the test before or behind the body.  Each is a pattern over instructions that records what
the compiler added, the plumbing: fetching the iterator, asking it for the next element, testing, counting.
Line numbers and frames are passed over.

The labels of the loop are captured where they are first met and compared with afterwards, so loops that
lie inside one another are kept apart.  All four patterns pass the check.

What lies between the two rows of a loop is any number of instructions, so one header may be completed by several
footers, and each of these is a match of its own.
-/

import LoopPlumbing.Bytecode.Shape
import LoopPlumbing.Sequence.Matcher

namespace LoopPlumbing
namespace ForEach

open Bytecode
open Sequence

/-- How a for-each loop is compiled. -/
inductive Idiom where
  | iteratorTestAtBottom
  | iteratorTestAtTop
  | arrayTestAtBottom
  | arrayTestAtTop
deriving DecidableEq

/-- The iterators of the collections. -/
def iterator : ClassName := .ofText "java/util/Iterator"

/-- A call that gives an iterator. -/
def iteratorCall : Shape := .callReturning (.object iterator)

/-- Asks an iterator whether there is more. -/
def hasNext : Shape := .callTo iterator "hasNext"

/-- Asks an iterator for the next element. -/
def next : Shape := .callTo iterator "next"

/-- A token that is plumbing. -/
def plumbing (p : Shape) : Shape := p.and .recording

/-- Where the loop starts over. -/
def loopStart : Slot := ⟨0, "loopStart"⟩

/-- Where the loop is left, or tested. -/
def loopEnd : Slot := ⟨1, "loopEnd"⟩

/-- The local that counts. -/
def counter : Slot := ⟨2, "counter"⟩

/-- Any one instruction of the loop's own code. -/
def body : Pattern Instruction Captured := .token Shape.any

/-- The pattern, then one instruction for each shape. -/
def followedBy (q : Pattern Instruction Captured) (shapes : List Shape) :
    Pattern Instruction Captured :=
  shapes.foldl Pattern.thenToken q

namespace Idiom

/-- All idioms, in the order in which they are tried. -/
def all : List Idiom := [iteratorTestAtBottom, iteratorTestAtTop, arrayTestAtBottom, arrayTestAtTop]

/-- What the loop starts with. -/
def first : Idiom → Shape
  | iteratorTestAtBottom | iteratorTestAtTop => plumbing iteratorCall
  | arrayTestAtBottom | arrayTestAtTop => plumbing (.opcode .arrayLength)

/-- What follows up to the body. -/
def header : Idiom → List Shape
  | iteratorTestAtBottom =>
    [.opcode (.store .reference), .goto loopEnd, .label loopStart, .opcode (.load .reference),
      plumbing next]
  | iteratorTestAtTop =>
    [.opcode (.store .reference), .label loopStart, .opcode (.load .reference), plumbing hasNext,
      plumbing (.branch loopEnd), .opcode (.load .reference), plumbing next]
  | arrayTestAtBottom =>
    [.opcode (.store .int), plumbing (.constInt 0), .store .int counter, .goto loopEnd,
      .label loopStart]
  | arrayTestAtTop =>
    [.opcode (.store .int), plumbing (.constInt 0), .store .int counter, .label loopStart,
      .opcode (.load .int), .opcode (.load .int), plumbing (.branch loopEnd)]

/-- What follows the body. -/
def footer : Idiom → List Shape
  | iteratorTestAtBottom =>
    [.labelBound loopEnd, .opcode (.load .reference), plumbing hasNext,
      plumbing (.branchBound loopStart)]
  | iteratorTestAtTop =>
    [.gotoBound loopStart, .labelBound loopEnd]
  | arrayTestAtBottom =>
    [plumbing (.incrementBound counter), .labelBound loopEnd, .opcode (.load .int),
      .opcode (.load .int), plumbing (.branchBound loopStart)]
  | arrayTestAtTop =>
    [plumbing (.incrementBound counter), .gotoBound loopStart]

/-- The shape of the whole loop. -/
def pattern (i : Idiom) : Pattern Instruction Captured :=
  followedBy ((followedBy (.token i.first) i.header).thenStar body) i.footer

/-- **Every idiom passes the check.** -/
theorem check_pattern (i : Idiom) : ∃ bound, i.pattern.check [] = .ok bound := by
  cases i <;> exact ⟨_, rfl⟩

/-- The idiom, tried at every instruction; line numbers and frames are passed over. -/
def matcher (i : Idiom) : Matcher Instruction Captured :=
  ⟨i.pattern, { (Options.default : Options Instruction Captured) with ignores := Shape.annotation },
    i.check_pattern⟩

end Idiom
end ForEach
end LoopPlumbing
