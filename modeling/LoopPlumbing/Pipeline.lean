/- # Pipelines

A pipeline runs stages in the order of their kinds, stages of one kind in the order given, each fed with
what the one before returned.  A pipeline is a stage itself, so pipelines nest.

A caller that wants to know which library runs the stages is told its `version`.
-/

import LoopPlumbing.Stage

namespace LoopPlumbing

/-- The version of the library. -/
def version : String := "1.0.0"

/-- Stages in running order. -/
structure Pipeline (ε : Type) where
  stages : List (Stage ε)
  ordered : stages.Pairwise fun a b => a.kind.rank ≤ b.kind.rank

namespace Pipeline

variable {ε : Type}

/-- Whether the first stage may run before the second. -/
def precedes (a b : Stage ε) : Bool := a.kind.rank ≤ b.kind.rank

/-- Orders stages by kind, those of one kind as they come. -/
def ofStages (stages : List (Stage ε)) : Pipeline ε where
  stages := stages.mergeSort precedes
  ordered := by
    refine (List.pairwise_mergeSort ?_ ?_ stages).imp fun h => by simpa [precedes] using h
    · intro a b c
      simp only [precedes, decide_eq_true_eq]
      exact Nat.le_trans
    · intro a b
      simp only [precedes, Bool.or_eq_true, decide_eq_true_eq]
      exact Nat.le_total _ _

/-- A pipeline has the stages that it was made from. -/
theorem stages_ofStages_perm (stages : List (Stage ε)) : (ofStages stages).stages.Perm stages :=
  List.mergeSort_perm stages precedes

/-- The kinds of the stages, in running order. -/
def kinds (p : Pipeline ε) : List StageKind := p.stages.map (·.kind)

/-- The number of stages. -/
def size (p : Pipeline ε) : Nat := p.stages.length

/-- Whether there is no stage. -/
def isEmpty (p : Pipeline ε) : Bool := p.stages.isEmpty

/-- The whole pipeline as one stage. -/
def toStage (report : Event → ε) (p : Pipeline ε) : Stage ε :=
  p.stages.foldr (fun a rest => (a.guarded report).andThen rest) .idle

/-- A pipeline is of no particular kind. -/
theorem kind_toStage (report : Event → ε) (p : Pipeline ε) : (p.toStage report).kind = .other := by
  unfold toStage
  cases p.stages <;> rfl

end Pipeline
end LoopPlumbing
