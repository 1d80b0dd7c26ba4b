import StepChart.Diagram
import StepChart.Path
import StepChart.Run.Error

/-!
# From a request to diagrams

A run is planned before anything is written: the settings are found, every file is read and
analyzed, and the diagrams are drawn. Whatever goes wrong on the way, no diagram has been written
yet.
-/

namespace StepChart

/-- What is asked for. -/
structure Request where
  /-- The source files, in the order in which they are analyzed. -/
  files : List String := []
  /-- One diagram goes to the console instead of one to each file. -/
  console : Bool := false
  /-- The settings file. -/
  config : Option String := none
  framework : Option String := none
  extension : Option String := none
deriving Repr, DecidableEq, Inhabited

/-- What a run can see of the world: the texts of the readable files and the working directory. -/
structure Surroundings where
  read : String → Option String
  directory : Option String

/-! ## Settings -/

/-- The name of settings files that need not be asked for. -/
def settingsFileName : String := ".stepmap.toml"

/-- How many directories are searched for a settings file. -/
def searchDepth : Nat := 10

/-- The paths at which a settings file is looked for, nearest first. -/
def Surroundings.candidates (surroundings : Surroundings) : List String :=
  match surroundings.directory with
  | some directory => (Path.ancestors searchDepth directory).map (Path.join · settingsFileName)
  | none => []

/-- The settings at a path, if they can be used. -/
def Surroundings.usableSettings? (surroundings : Surroundings) (path : String) : Option Settings :=
  (surroundings.read path).bind fun text => (Settings.ofText text).toOption

/-- The settings nearest to the working directory, or the defaults. -/
def Surroundings.nearestSettings (surroundings : Surroundings) : Settings :=
  (surroundings.candidates.findSome? surroundings.usableSettings?).getD {}

/-- The settings in a file that was asked for. -/
def Surroundings.settingsAt (surroundings : Surroundings) (path : String) : Except RunError Settings :=
  match surroundings.read path with
  | none => .error (.unreadableSettings path)
  | some text => (Settings.ofText text).mapError (.badSettingsFile path)

/-- The settings with what the request says itself. -/
def Request.override (request : Request) (settings : Settings) : Settings :=
  { settings with
    framework := request.framework.getD settings.framework
    extension := request.extension.getD settings.extension }

/-- The settings before the command line is looked at. -/
def Request.start (request : Request) (surroundings : Surroundings) : Except RunError Settings :=
  match request.config with
  | some path => surroundings.settingsAt path
  | none => .ok surroundings.nearestSettings

/-- The settings of a run. -/
def Request.settings (request : Request) (surroundings : Surroundings) : Except RunError Settings :=
  match request.start surroundings with
  | .error error => .error error
  | .ok settings => (request.override settings).checked .badSettings

/-! ## Sources -/

/-- Reads the text of the source file at a path. -/
abbrev Frontend := (path source : String) → Except Go.SyntaxError Syntax.SourceFile

/-- The steps of a source text. -/
def Frontend.steps (frontend : Frontend) (options : AnalysisOptions) (path source : String) :
    Except RunError (List Step) :=
  match frontend path source with
  | .error error => .error (.badSource path source error)
  | .ok file => (analyze options file).mapError (.badGuard path)

/-- Adds the steps of a source text to a graph. -/
def Graph.addSource (frontend : Frontend) (options : AnalysisOptions) (graph : Graph) (path source : String) :
    Except RunError Graph :=
  (frontend.steps options path source).map (graph.addSteps (Path.stem path))

/-- Adds the steps of files to a graph, up to the first file that cannot be read or analyzed. -/
def Graph.addFiles (frontend : Frontend) (options : AnalysisOptions) (surroundings : Surroundings) :
    List String → Graph → Except RunError Graph
  | [], graph => .ok graph
  | path :: rest, graph =>
    match surroundings.read path with
    | none => .error (.unreadableSource path)
    | some source =>
      match graph.addSource frontend options path source with
      | .error error => .error error
      | .ok graph => addFiles frontend options surroundings rest graph

/-! ## Diagrams -/

/-- The diagrams of a graph as they are asked for; there are none if it has no step. -/
def Request.draw (request : Request) (settings : Settings) (graph : Graph) : List Diagram :=
  if graph.isEmpty then [] else graph.propagate.diagrams request.console settings.extension

/-- The diagrams of a run. -/
def Request.plan (request : Request) (frontend : Frontend) (surroundings : Surroundings) :
    Except RunError (List Diagram) :=
  match request.settings surroundings with
  | .error error => .error error
  | .ok settings =>
    (Graph.addFiles frontend settings.options surroundings request.files {}).map (request.draw settings)

/-- The paths whose texts a plan may depend on. -/
def Request.reads (request : Request) (surroundings : Surroundings) : List String :=
  (match request.config with
    | some path => [path]
    | none => surroundings.candidates) ++ request.files

end StepChart
