/- # Classes of characters

White space and the punctuation of settings have no character in common with the word characters.  The classes
are lists of ranges, so they are compared range by range (`apart`) and not character by character.
-/

import LoopPlumbing.Text.Classes

namespace LoopPlumbing
namespace Text

/-- Whether each of some ranges lies below or above each of others. -/
def apart (rs qs : List (Nat × Nat)) : Bool :=
  rs.all fun r => qs.all fun q => Nat.blt r.2 q.1 || Nat.blt q.2 r.1

/-- A character of one class is in no class apart from it: every range of the one lies below or above every range of
the other. -/
theorem inRanges_eq_false_of_apart {rs qs : List (Nat × Nat)} (h : apart rs qs = true) {c : Char}
    (hc : inRanges rs c = true) : inRanges qs c = false := by
  obtain ⟨r, hr, inside⟩ := List.any_eq_true.1 hc
  refine List.any_eq_false.2 fun q hq inside' => ?_
  have disjoint := List.all_eq_true.1 (List.all_eq_true.1 h r hr) q hq
  simp only [Bool.and_eq_true, Bool.or_eq_true, decide_eq_true_eq, Nat.blt_eq] at inside inside' disjoint
  omega

/-- **White space is no part of a word.** -/
theorem isWord_eq_false_of_isBlank {c : Char} (h : isBlank c = true) : isWord c = false :=
  inRanges_eq_false_of_apart (by decide +kernel) h

/-- Nothing is dropped from a text that does not begin with a blank. -/
theorem dropWhile_isBlank_eq_self {cs : List Char} (h : ∀ c ∈ cs.head?, isBlank c = false) :
    cs.dropWhile isBlank = cs := by
  cases cs with
  | nil => rfl
  | cons c cs => exact List.dropWhile_cons_of_neg (Bool.eq_false_iff.1 (h c rfl))

/-- A text with no white space at its ends leaves nothing to trim. -/
theorem trim_eq_self {cs : List Char} (first : ∀ c ∈ cs.head?, isBlank c = false)
    (last : ∀ c ∈ cs.getLast?, isBlank c = false) : trim cs = cs := by
  rw [trim, dropWhile_isBlank_eq_self first, dropWhile_isBlank_eq_self (by rwa [List.head?_reverse]),
    List.reverse_reverse]

end Text
end LoopPlumbing
