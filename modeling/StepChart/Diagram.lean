import StepChart.Machine.Graph
import StepChart.Text.Quoted

/-!
# State diagrams

A diagram is a list of lines, each of which declares a state, annotates one, or draws an arrow.
Every registered step has a node of its own; a target that no registered step has gets a fresh node
each time it is met, numbered through the diagram. `Line.text` writes the lines in the language of
the diagram tool.
-/

namespace StepChart

open Text

/-- A state of a diagram: the node of a step, or a node for a target that is not known. -/
structure Node where
  machine : Nat
  known : Bool
  number : Nat
deriving Repr, DecidableEq, Inhabited

/-- How an arrow is drawn. -/
inductive Arrow where
  | solid | dashed | dotted
deriving Repr, DecidableEq, Inhabited

/-- A line of a diagram. -/
inductive Line where
  /-- Declares a node and the name it shows. -/
  | state (name : String) (node : Node) (subroutine : Bool)
  /-- Annotates a node. -/
  | remark (node : Node) (text : String)
  /-- The machine starts at a node. -/
  | start (node : Node)
  /-- The machine ends after a node. -/
  | stop (node : Node) (note : String)
  /-- An arrow between two nodes. -/
  | arrow (source : Node) (style : Arrow) (target : Node) (note : String)
deriving Repr, DecidableEq, Inhabited

/-! ## Text of lines -/

/-- A number with at least `width` digits. -/
def padded (width number : Nat) : String :=
  let digits := toString number
  String.ofList (List.replicate (width - digits.length) '0') ++ digits

/-- The alias of a node. -/
def Node.alias (node : Node) : String :=
  "T" ++ padded 2 node.machine ++ (if node.known then "_S" else "_U") ++ padded 3 node.number

/-- An arrow. -/
def Arrow.text : Arrow → String
  | .solid => "-->"
  | .dashed => "--[dashed]>"
  | .dotted => "--[dotted]>"

/-- A note after a line, if there is one. -/
def noted (note : String) : String :=
  if note.isEmpty then "" else " : " ++ note

/-- The text of a line, without its end. -/
def Line.text : Line → String
  | .state name node subroutine =>
    "state " ++ quote name ++ " as " ++ node.alias ++ (if subroutine then " <<sdlreceive>>" else "")
  | .remark node text => node.alias ++ " : " ++ text
  | .start node => "[*] --> " ++ node.alias
  | .stop node note => node.alias ++ " -->[*]" ++ noted note
  | .arrow source style target note => source.alias ++ " " ++ style.text ++ " " ++ target.alias ++ noted note

/-! ## Lines of a machine -/

/-- The lines drawn so far, and how many nodes for unknown targets are among them. -/
structure Drawing where
  lines : List Line := []
  unknown : Nat := 0
deriving Repr, DecidableEq, Inhabited

namespace Drawing

/-- Adds lines. -/
def draw (drawing : Drawing) (lines : List Line) : Drawing :=
  { drawing with lines := drawing.lines ++ lines }

/-- The node of a registered step. -/
def nodeOf (machine : Machine) (step : Step) : Node := ⟨machine.sequence, true, step.number⟩

/-- Draws a fresh node for a target that is not known. -/
def drawUnknown (machine : Machine) (name : String) (drawing : Drawing) : Node × Drawing :=
  let number := drawing.unknown + 1
  let node : Node := ⟨machine.sequence, false, number⟩
  let state := if name.isEmpty then [] else [Line.state name node false]
  let lines := state ++ [.remark node machine.receiverType, .remark node "UNKNOWN"]
  (node, { drawing.draw lines with unknown := number })

/-- The node of a target: that of the step it is, or a fresh one. -/
def nodeFor (machine : Machine) (name : String) (target : Option Step) (drawing : Drawing) : Node × Drawing :=
  match target with
  | some step => (nodeOf machine step, drawing)
  | none => drawUnknown machine name drawing

/-- What is written on the arrow of a transition. -/
def noteOf (transition : Transition) : String :=
  if transition.condition.isEmpty then transition.operation
  else transition.condition ++ "\\n" ++ transition.operation

/-- Draws the arrow to a handler. -/
def drawHandler (machine : Machine) (source : Node) (drawing : Drawing) (migration : String) : Drawing :=
  let (target, drawing) := nodeFor machine migration (machine.find? migration) drawing
  drawing.draw [.arrow source .dotted target ""]

/-- Draws the arrow of a transition. It is dashed if it has an operation and does not enter a
subroutine. -/
def drawTransition (machine : Machine) (source : Node) (drawing : Drawing) (transition : Transition) : Drawing :=
  let note := noteOf transition
  let style := if transition.operation.isEmpty then Arrow.solid else .dashed
  if transition.isStop then drawing.draw [.stop source note]
  else if transition.isRepeat then drawing.draw [.arrow source style source note]
  else
    let target := transition.targets.destination.bind machine.step?
    let (node, drawing) := nodeFor machine transition.destination target drawing
    let style := if target.any (·.isSubroutine) then .solid else style
    drawing.draw [.arrow source style node note]

/-- Draws a step with its arrows. -/
def drawStep (machine : Machine) (drawing : Drawing) (step : Step) : Drawing :=
  let node := nodeOf machine step
  let declared :=
    [Line.state step.name node step.isSubroutine]
      ++ (if step.isSubroutine then [] else [.remark node machine.receiverType])
      ++ (if step.duplicate then [.remark node "DUPLICATE"] else [])
      ++ (if machine.isInitial step then [.start node] else [])
  let handlers := if step.kind = .execution then step.migrations.toList else []
  let drawing := handlers.foldl (drawHandler machine node) (drawing.draw declared)
  step.transitions.foldl (drawTransition machine node) drawing

/-- Draws the steps of a machine in the order of their names. -/
def drawMachine (drawing : Drawing) (machine : Machine) : Drawing :=
  machine.steps.foldl (drawStep machine) drawing

end Drawing

/-! ## Documents -/

/-- The lines that draw some machines. -/
def linesOf (machines : List Machine) : List Line :=
  (machines.foldl Drawing.drawMachine {}).lines

/-- Lines of text, each with its end. -/
def joinLines (lines : List String) : String :=
  lines.foldl (fun text line => text ++ line ++ "\n") ""

/-- The document that draws some machines. -/
def document (machines : List Machine) : String :=
  joinLines (["@startuml"] ++ (linesOf machines).map Line.text ++ ["@enduml"])

/-- A diagram and the file it goes to; one without a file goes to the console. -/
structure Diagram where
  path : Option String
  content : String
deriving Repr, DecidableEq, Inhabited

/-- The path of the diagram of an output. -/
def diagramPath (output extension : String) : String := output ++ extension

/-- Diagrams that go to files, from their paths and contents. -/
def diagramsTo (writes : List (String × String)) : List Diagram :=
  writes.map fun write => ⟨some write.1, write.2⟩

/-- What a graph writes to files: one document for each output, in a file named after it. -/
def Graph.writes (graph : Graph) (extension : String) : List (String × String) :=
  (groupByOutput graph.ordered).map fun group => (diagramPath group.1 extension, document group.2)

/-- The diagrams of a graph: one for the console, or one for each output. -/
def Graph.diagrams (graph : Graph) (console : Bool) (extension : String) : List Diagram :=
  if console then [⟨none, document graph.ordered⟩] else diagramsTo (graph.writes extension)

end StepChart
