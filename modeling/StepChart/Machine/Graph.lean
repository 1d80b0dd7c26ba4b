import StepChart.Machine.Propagation

/-!
# Graphs of several machines

All machines found in the given files. A machine belongs to the output of the file in which its
first step was found.
-/

namespace StepChart

/-- The machines found, in the order in which they were found. -/
structure Graph where
  machines : List Machine := []
deriving Inhabited

namespace Graph

/-- The machine of a receiver type. -/
def machine? (graph : Graph) (receiverType : String) : Option Machine :=
  graph.machines.find? (·.receiverType == receiverType)

/-- Registers a step with the machine of its receiver type, which is made if it is not there. -/
def add (output : String) (graph : Graph) (step : Step) : Graph :=
  let receiverType := step.signature.receiverType
  let register (machine : Machine) : Machine := machine.add false step
  if (graph.machine? receiverType).isSome then
    { machines := graph.machines.map fun machine =>
        if machine.receiverType = receiverType then register machine else machine }
  else
    { machines := graph.machines ++ [register { receiverType, output, sequence := graph.machines.length }] }

/-- Registers the steps of one file. -/
def addSteps (graph : Graph) (output : String) (steps : List Step) : Graph :=
  steps.foldl (add output) graph

/-- One machine comes before another: by output, then by receiver type. -/
def precedes (first second : Machine) : Bool :=
  first.output < second.output || (first.output == second.output && first.receiverType ≤ second.receiverType)

/-- The machines ordered by output, then by receiver type. -/
def ordered (graph : Graph) : List Machine :=
  graph.machines.mergeSort precedes

/-- No machine has a step. -/
def isEmpty (graph : Graph) : Bool :=
  graph.machines.all Machine.isEmpty

/-- Spreads the handlers in all machines. -/
def propagate (graph : Graph) : Graph :=
  { machines := graph.machines.map Machine.propagate }

end Graph

/-- Neighbouring machines with the same output, with that output. -/
def groupByOutput : List Machine → List (String × List Machine)
  | [] => []
  | machine :: rest =>
    match groupByOutput rest with
    | (output, members) :: groups =>
      if output = machine.output then (output, machine :: members) :: groups
      else (machine.output, [machine]) :: (output, members) :: groups
    | [] => [(machine.output, [machine])]

end StepChart
