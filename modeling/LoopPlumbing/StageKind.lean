/- # Kinds of stages

A stage of the pipeline changes candidates, removes them, or looks at them.  Its kind also says when it
runs: whatever changes candidates comes before whatever removes them, and reports come last.
-/

namespace LoopPlumbing

/-- What a stage does to the candidates, in running order. -/
inductive StageKind where
  | other
  | modify
  | filter
  | preScanFilter
  | report
deriving DecidableEq

namespace StageKind

/-- The place in the running order. -/
def rank : StageKind → Nat
  | other => 0
  | modify => 1
  | filter => 2
  | preScanFilter => 3
  | report => 4

/-- No two kinds share a place in the running order. -/
theorem rank_injective {a b : StageKind} (h : a.rank = b.rank) : a = b := by
  cases a <;> cases b <;> first | rfl | contradiction

/-- Whether a stage of this kind only ever removes candidates. -/
def isRemoving : StageKind → Bool
  | filter | preScanFilter => true
  | _ => false

/-- The name used in messages. -/
def label : StageKind → String
  | other => "Other"
  | modify => "Modify"
  | filter => "Filter"
  | preScanFilter => "PreScanFilter"
  | report => "Report"

/-- The name used in data. -/
def text : StageKind → String
  | other => "OTHER"
  | modify => "MODIFY"
  | filter => "FILTER"
  | preScanFilter => "PRE_SCAN_FILTER"
  | report => "REPORT"

/-- All kinds, in running order. -/
def all : List StageKind := [other, modify, filter, preScanFilter, report]

/-- The kind with a name. -/
def ofText? (s : String) : Option StageKind := all.find? (·.text = s)

/-- Every name of a kind is read as that kind. -/
theorem ofText?_text (k : StageKind) : ofText? k.text = some k := by
  cases k <;> decide +kernel

end StageKind
end LoopPlumbing
