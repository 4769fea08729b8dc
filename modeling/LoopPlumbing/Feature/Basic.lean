/- # Features

A feature is a capability that can be switched on and off by name.  Names are compared without regard to
the case of the letters A to Z.
-/

namespace LoopPlumbing

/-- A capability with a name. -/
structure Feature where
  name : String
  onByDefault : Bool
  description : String
deriving DecidableEq

/-- A name with its capital letters A to Z made small. -/
def folded (name : String) : String := name.map Char.toLower

namespace Feature

/-- A feature without description that is off unless it is switched on. -/
def named (name : String) : Feature := ⟨name, false, ""⟩

/-- Whether a name means this feature. -/
def isNamed (f : Feature) (name : String) : Bool := folded f.name = folded name

/-- Name, default and description. -/
def text (f : Feature) : String :=
  f.name ++ " [" ++ (if f.onByDefault then "on" else "off") ++ "] " ++ f.description

end Feature
end LoopPlumbing
