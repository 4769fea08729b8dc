/- # Settings

A setting switches a feature on or off and gives it parameters.  It is written as a sign, a name and, in
parentheses, any number of items `key[value]`, separated by white space and commas or by nothing:

    +NAME   -NAME   +NAME(key[value] other[value])

Names and keys are not empty and consist of word characters; a value may hold anything but `]`, and there is
no line feed between the parentheses.  White space around the setting is dropped.
-/

import LoopPlumbing.Feature.Params
import LoopPlumbing.Text.Classes

namespace LoopPlumbing

open Text (isBlank isWord trim)

/-- What a user asks of a feature. -/
structure Setting where
  name : String
  enabled : Bool
  params : Params
deriving DecidableEq

namespace Setting

/-! ### Reading

A setting is split at its sign, its name and its parentheses first; what is inside is read item by item.
-/

/-- What may stand between two items. -/
def isSeparator (c : Char) : Bool := isBlank c || c = ','

/-- Where a reader of items stands: between items, in a key, or in the value of a key. -/
inductive Place where
  | between
  | inKey (key : List Char)
  | inValue (key value : List Char)
deriving DecidableEq

/-- Reads items to the end of the text, from a place; nothing if the text is not a list of items. -/
def readItems : Place → List Char → Option (List (List Char × List Char))
  | .between, [] => some []
  | .between, c :: cs =>
    if isSeparator c then readItems .between cs
    else if isWord c then readItems (.inKey [c]) cs
    else none
  | .inKey _, [] => none
  | .inKey key, c :: cs =>
    if isWord c then readItems (.inKey (key ++ [c])) cs
    else if c = '[' then readItems (.inValue key []) cs
    else none
  | .inValue _ _, [] => none
  | .inValue key value, c :: cs =>
    if c = ']' then ((key, value) :: ·) <$> readItems .between cs
    else readItems (.inValue key (value ++ [c])) cs

/-- What stands between the parentheses, if a text is enclosed in them and has no line feed inside. -/
def enclosed? (cs : List Char) : Option (List Char) :=
  match cs with
  | '(' :: rest =>
    if rest.getLast? = some ')' && '\n' ∉ rest.dropLast then some rest.dropLast else none
  | _ => none

/-- A sign: whether the feature is switched on. -/
def sign? (c : Char) : Option Bool :=
  if c = '+' then some true else if c = '-' then some false else none

/-- Sign, name, and what stands between the parentheses if there are any. -/
def split? (cs : List Char) : Option (Bool × List Char × Option (List Char)) :=
  match cs with
  | [] => none
  | c :: rest => do
    let enabled ← sign? c
    let name := rest.takeWhile isWord
    if name.isEmpty then none
    else
      match rest.dropWhile isWord with
      | [] => some (enabled, name, none)
      | tail => (fun inner => (enabled, name, some inner)) <$> enclosed? tail

/-- Reads a setting. -/
def parse (input : String) : Except Fault Setting :=
  match split? (trim input.toList) with
  | none => .error (.invalidSetting (.notASetting input))
  | some (enabled, name, inner) =>
    match readItems .between (inner.getD []) with
    | none => .error (.invalidSetting (.malformedParameters input))
    | some items =>
      .ok ⟨.ofList name, enabled, .ofPairs (items.map fun i => (.ofList i.1, .ofList i.2))⟩

/-! ### Writing -/

/-- One item. -/
def itemText (key value : String) : String := key ++ "[" ++ value ++ "]"

/-- All parameters in parentheses, by key; nothing if there is no key. -/
def paramsText (p : Params) : String :=
  if p.isEmpty then ""
  else "(" ++ " ".intercalate (p.entries.flatMap fun e => e.2.map (itemText e.1)) ++ ")"

/-- Writes a setting. -/
def text (s : Setting) : String :=
  (if s.enabled then "+" else "-") ++ s.name ++ paramsText s.params

end Setting
end LoopPlumbing
