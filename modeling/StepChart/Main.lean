import StepChart.CommandLine

/-!
# The program

Reads the arguments and the files they name, and writes the diagrams of the plan.
-/

namespace StepChart

/-- The text of a file, if it can be read. -/
def readText? (path : String) : IO (Option String) := do
  try
    return String.fromUTF8? (← IO.FS.readBinFile path)
  catch _ =>
    return none

/-- The working directory, if there is one. -/
def workingDirectory? : IO (Option String) := do
  try
    return some (← IO.currentDir).toString
  catch _ =>
    return none

/-- What a request can see of the file system. -/
def observe (request : Request) : IO Surroundings := do
  let directory ← workingDirectory?
  let texts ← (request.reads ⟨fun _ => none, directory⟩).mapM fun path => do
    return (path, ← readText? path)
  return ⟨fun path => (texts.lookup path).join, directory⟩

/-- Writes a diagram. -/
def put (diagram : Diagram) : IO (Except RunError Unit) := do
  match diagram.path with
  | none =>
    IO.print diagram.content
    return .ok ()
  | some path =>
    try
      IO.FS.writeFile path diagram.content
      return .ok ()
    catch _ =>
      return .error (.unwritableDiagram path)

/-- Tells the user why a run ended early. -/
def complain (error : RunError) : IO Unit := do
  IO.eprintln ("Error: " ++ error.message)
  if let some fault := error.fault? then
    IO.eprintln ("\nCaused by:\n    " ++ fault.text)

/-- Writes diagrams, up to the first that cannot be written; the answer is the exit code. -/
def putAll : List Diagram → IO UInt32
  | [] => return 0
  | diagram :: rest => do
    match ← put diagram with
    | .ok () => putAll rest
    | .error error =>
      complain error
      return 1

end StepChart

open StepChart in
/-- Analyzes the files named by the arguments. -/
def main (arguments : List String) : IO UInt32 := do
  match CommandLine.parse (← IO.getEnv "STEPMAP_CONFIG") arguments with
  | .error halt =>
    if halt.isAnswer then
      IO.print halt.message
      return 0
    else
      IO.eprint halt.message
      return 2
  | .ok arguments =>
    match arguments.request.plan Go.parse (← observe arguments.request) with
    | .ok diagrams => putAll diagrams
    | .error error =>
      complain error
      return 1
