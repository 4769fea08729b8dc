/- # Class names

A class is named by the packages that lead to it, separated by slashes inside a class file and by dots
in source text.  A `ClassName` holds the first form: whichever form it is made from, it has no dot
(`ClassName.noDot`), so two spellings of one class are one name (`ofText_eq_ofText_iff`).
-/

namespace LoopPlumbing
namespace Bytecode

/-- A dot becomes a slash. -/
def slashed (c : Char) : Char := if c = '.' then '/' else c

/-- A slash becomes a dot. -/
def dotted (c : Char) : Char := if c = '/' then '.' else c

/-- Where dots have become slashes, no dot is left. -/
theorem slashed_ne_dot (c : Char) : slashed c ≠ '.' := by
  unfold slashed
  split
  · decide
  · assumption

/-- Every other character stays as it is. -/
theorem slashed_of_ne_dot {c : Char} (h : c ≠ '.') : slashed c = c := if_neg h

/-- The name of a class, packages separated by slashes. -/
structure ClassName where
  internal : String
  noDot : '.' ∉ internal.toList

namespace ClassName

/-- A class name is its spelling with slashes. -/
@[ext] theorem ext {a b : ClassName} (h : a.internal = b.internal) : a = b := by
  cases a; cases b; cases h; rfl

/-- Class names are equal if they are spelt alike. -/
instance : DecidableEq ClassName := fun a b =>
  decidable_of_iff (a.internal = b.internal) ⟨ext, congrArg _⟩

/-- Class names are ordered by their spelling. -/
instance : Ord ClassName := ⟨fun a b => compare a.internal b.internal⟩

/-- Reads either form. -/
def ofText (text : String) : ClassName where
  internal := text.map slashed
  noDot := by
    rw [String.toList_map, List.mem_map]
    rintro ⟨c, -, h⟩
    exact slashed_ne_dot c h

/-- A dotted spelling is kept with slashes. -/
@[simp] theorem internal_ofText (text : String) : (ofText text).internal = text.map slashed := rfl

/-- **Two spellings name one class exactly if they differ in dots and slashes alone.** -/
theorem ofText_eq_ofText_iff (a b : String) :
    ofText a = ofText b ↔ a.map slashed = b.map slashed :=
  ⟨congrArg internal, fun h => ext h⟩

/-- A name is read back from its own text. -/
theorem ofText_internal (n : ClassName) : ofText n.internal = n := by
  refine ext (String.toList_injective ?_)
  rw [internal_ofText, String.toList_map]
  exact (List.map_congr_left fun c hc => slashed_of_ne_dot fun h => n.noDot (h ▸ hc)).trans
    (List.map_id' _)

/-- The form used in source text. -/
def sourceForm (n : ClassName) : String := n.internal.map dotted

end ClassName
end Bytecode
end LoopPlumbing
