/- # JSON values

JSON as data, with the readers from which records are read.  Integers and other numbers are told apart: a
number with a fraction is never an integer, whatever its value.

A record is read from an object, where the order of the fields and unknown keys do not matter, or from a
list of its fields in the order of declaration (`recordFields`).  An object that repeats the name of a field
is no record; a key that names no field may be repeated.
-/

namespace LoopPlumbing

/-- A JSON value; a `real` is `mantissa` divided by ten to the number of `places`. -/
inductive Json where
  | null
  | bool (b : Bool)
  | integer (n : Int)
  | real (mantissa : Int) (places : Nat)
  | text (s : String)
  | list (elements : List Json)
  | object (fields : List (String × Json))
deriving Inhabited

namespace Json

/-- Reads a text. -/
def text? : Json → Option String
  | text s => some s
  | _ => none

/-- Reads a truth value. -/
def bool? : Json → Option Bool
  | bool b => some b
  | _ => none

/-- Reads a natural number below a limit. -/
def below? (limit : Nat) : Json → Option Nat
  | integer n => if 0 ≤ n ∧ n < limit then some n.toNat else none
  | _ => none

/-- Reads a list of texts. -/
def texts? : Json → Option (List String)
  | list elements => elements.mapM text?
  | _ => none

/-- Whether more than one of the fields bears the name. -/
def isRepeated (fields : List (String × Json)) (name : String) : Bool :=
  1 < (fields.map (·.1)).count name

/-- The fields of a record with the given names, those that are missing left out: from an object by name,
from a list by place. -/
def recordFields (names : List String) : Json → Option (List (Option Json))
  | object fields =>
    if names.any (isRepeated fields) then none else some (names.map fun name => fields.lookup name)
  | list elements =>
    if elements.length ≤ names.length then
      some (elements.map some ++ List.replicate (names.length - elements.length) none)
    else none
  | _ => none

end Json
end LoopPlumbing
