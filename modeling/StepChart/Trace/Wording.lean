import StepChart.Trace.Outline

/-!
# Wording the guards of an outline

The guards of an outline's moves are replaced by labels, and the moves enter the step one after the
other. Nothing else about a step depends on the wording.
-/

namespace StepChart

open Syntax

/-- How guards are worded: the label of each, and the limit for conditions that are joined. -/
structure Wording where
  label : Guard → Except LabelError String
  limit : Nat

/-- Labels of about `limit` bytes, in which the source text is quoted. -/
def Wording.ofSource (source : String) (limit : Nat) : Wording :=
  ⟨Guard.label source limit, limit⟩

/-- The transition of a move, with its guard in words. -/
def Wording.transition (wording : Wording) (move : Move) : Except LabelError Transition :=
  match move.guard with
  | none => .ok move.transition
  | some guard => (wording.label guard).map fun condition => { move.transition with condition }

/-- Adds the moves to a step. -/
def Wording.addMoves (wording : Wording) : Step → List Move → Except LabelError Step
  | step, [] => .ok step
  | step, move :: moves =>
    match wording.transition move with
    | .error fault => .error fault
    | .ok transition => wording.addMoves (step.addTransition wording.limit transition) moves

mutual

/-- The step with this outline. -/
def Outline.toStep (wording : Wording) : Outline → Except LabelError Step
  | ⟨signature, moves, subSteps, usages, migrations, isSubroutine⟩ =>
    match Outline.toSteps wording subSteps with
    | .error fault => .error fault
    | .ok subSteps => wording.addMoves { signature, subSteps, usages, migrations, isSubroutine } moves

/-- The steps with these outlines. -/
def Outline.toSteps (wording : Wording) : List Outline → Except LabelError (List Step)
  | [] => .ok []
  | outline :: outlines =>
    match outline.toStep wording with
    | .error fault => .error fault
    | .ok step => (Outline.toSteps wording outlines).map (step :: ·)

end

end StepChart
