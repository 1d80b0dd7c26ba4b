import StepChart.Step.Basic

/-!
# State machines

The steps of one receiver type, in the order of their names. Registration gives each step its
number; the first step of a name is kept, and a later one only marks it as a duplicate. The steps
written inside a step are registered after it.

A machine carries the proof that its names ascend, so no name is registered twice. Whatever changes
the steps of a machine goes through `withSteps`, which keeps their names, or through `store`.
-/

namespace StepChart

open Text

theorem ascending_nil : (([] : List Step).map Step.name).Pairwise (· < ·) := .nil

/-- The steps of one receiver type. -/
@[ext] structure Machine where
  receiverType : String
  /-- What the diagram of the machine is called. -/
  output : String
  /-- The place of the machine among those found, counted from zero. -/
  sequence : Nat
  /-- A function that names the first step of the machine has been registered. -/
  hasInitializer : Bool := false
  /-- The registered steps. -/
  steps : List Step := []
  ascending : (steps.map Step.name).Pairwise (· < ·) := by exact ascending_nil

instance : Inhabited Machine := ⟨{ receiverType := "", output := "", sequence := 0 }⟩

namespace Machine

/-- The names of the registered steps. -/
def names (machine : Machine) : List String := machine.steps.map Step.name

/-- The machine with other steps under the same names. -/
def withSteps (machine : Machine) (steps : List Step) (same : steps.map Step.name = machine.names) : Machine :=
  { machine with steps, ascending := same ▸ machine.ascending }

/-- The step with exactly this name. -/
def step? (machine : Machine) (name : String) : Option Step :=
  machine.steps.find? (·.name == name)

/-- A step of this name is registered. -/
def has (machine : Machine) (name : String) : Bool :=
  machine.steps.any (·.name == name)

/-- The number of registered steps. -/
def size (machine : Machine) : Nat := machine.steps.length

/-- No step is registered. -/
def isEmpty (machine : Machine) : Bool := machine.steps.isEmpty

/-- The machine starts with this step: with the function that names the first step, if there is one,
else with any initialization. -/
def isInitial (machine : Machine) (step : Step) : Bool :=
  step.kind == if machine.hasInitializer then .initializer else .initialization

/-! ## Registration -/

/-- Puts a step at its place in a list that ascends by name, unless its name is there. -/
def insertStep (step : Step) : List Step → List Step
  | [] => [step]
  | first :: rest =>
    if step.name < first.name then step :: first :: rest
    else if step.name = first.name then first :: rest
    else first :: insertStep step rest

theorem map_name_insertStep (step : Step) (steps : List Step) :
    (insertStep step steps).map Step.name = insertName step.name (steps.map Step.name) := by
  induction steps with
  | nil => rfl
  | cons first rest ih =>
    simp only [insertStep, List.map_cons, insertName]
    split
    · rfl
    · split
      · rfl
      · rw [List.map_cons, ih]

/-- Marks the step of a name as a duplicate. -/
def markDuplicate (machine : Machine) (name : String) : Machine :=
  machine.withSteps
    (machine.steps.map fun step => if step.name = name then { step with duplicate := true } else step) (by
      rw [List.map_map]
      refine List.map_congr_left fun step _ => ?_
      simp only [Function.comp_apply]
      split <;> rfl)

/-- Stores a step under the next number. -/
def store (machine : Machine) (step : Step) : Machine :=
  { machine with
    hasInitializer := machine.hasInitializer || step.kind == .initializer
    steps := insertStep { step with number := machine.size + 1 } machine.steps
    ascending := by
      rw [map_name_insertStep]
      exact pairwise_insertName machine.ascending }

mutual

/-- Registers a step and the steps inside it. A plain step is left out unless it is asked for. -/
def add (untyped : Bool) : Step → Machine → Machine
  | ⟨signature, transitions, repeatIndex, subSteps, usages, migrations, number, duplicate, isSubroutine⟩, machine =>
    if !untyped && signature.kind == .plain then machine
    else if machine.has signature.name then machine.markDuplicate signature.name
    else
      let stored :=
        machine.store ⟨signature, transitions, repeatIndex, [], usages, migrations, number, duplicate, isSubroutine⟩
      addAll subSteps stored

/-- Registers steps and the steps inside them, plain ones as well. -/
def addAll : List Step → Machine → Machine
  | [], machine => machine
  | step :: rest, machine => addAll rest (add true step machine)

end

/-! ## Names -/

/-- What follows each dot of a name, from the first dot on. -/
def afterDots : List Char → List (List Char)
  | [] => []
  | c :: cs => if c = '.' then cs :: afterDots cs else afterDots cs

/-- The registered name that `name` refers to: itself, or else what is left of it after the first
possible dot. -/
def key? (machine : Machine) (name : String) : Option String :=
  ((name.toList :: afterDots name.toList).map String.ofList).find? fun candidate =>
    !candidate.isEmpty && machine.has candidate

/-- The step that `name` refers to. -/
def find? (machine : Machine) (name : String) : Option Step :=
  (machine.key? name).bind machine.step?

end Machine

end StepChart
