import StepChart.Step.Kind
import StepChart.Text.NameSet
import StepChart.Text.Search

/-!
# Steps and their transitions

A step has a signature, the transitions that leave it, and the steps that were written inside it. A
transition without a destination repeats the step. All repeats of a step are folded into one, whose
place the step stores: `Step.addTransition` is the only way a transition enters a step.
-/

namespace StepChart

open Text

/-- The destination of a transition that ends the state machine. -/
def stopDestination : String := "<stop>"

/-- The destination of a transition whose target is not known. -/
def unknownDestination : String := "<unknown>"

/-- The steps that the names in a transition refer to, once they have been looked up. -/
structure Targets where
  destination : Option String := none
  resumption : Option String := none
  migration : Option String := none
deriving Repr, DecidableEq, Inhabited

/-- A way out of a step. -/
structure Transition where
  condition : String := ""
  operation : String := ""
  /-- Empty for a repeat. -/
  destination : String := ""
  /-- The migration handler set for the destination, if any. -/
  migration : String := ""
  /-- The destination takes over the handlers of this step. -/
  inherits : Bool := false
  /-- The step that runs after a subroutine, if the destination is one. -/
  resumption : String := ""
  targets : Targets := {}
deriving Repr, DecidableEq, Inhabited

namespace Transition

/-- The transition comes back to its own step. -/
def isRepeat (transition : Transition) : Bool := transition.destination.isEmpty

/-- The transition ends the state machine. -/
def isStop (transition : Transition) : Bool := transition.destination == stopDestination

/-- The condition of a repeat after another one with condition `more` is folded into it: a line is
added for it unless the text was cut, and dots once the text has `limit` bytes. -/
def joinConditions (limit : Nat) (condition more : String) : String :=
  if more.isEmpty then condition
  else if condition.isEmpty then more
  else if endsWith "..." condition then condition
  else
    let joined := condition ++ "\\n" ++ more
    if limit ≤ joined.utf8ByteSize then joined ++ "..." else joined

/-- The operation of a repeat after another one with operation `more` is folded into it; what is
named already is not named again. -/
def joinOperations (operation more : String) : String :=
  if more.isEmpty then operation
  else if operation.isEmpty then more
  else if occursIn more.toList operation.toList then operation
  else operation ++ ", " ++ more

/-- A repeat with another repeat folded into it. -/
def fold (limit : Nat) (first more : Transition) : Transition :=
  { first with
    condition := joinConditions limit first.condition more.condition
    operation := joinOperations first.operation more.operation }

end Transition

/-- What the declaration of a step says about it. -/
structure Signature where
  receiverType : String := ""
  receiverName : Option String := none
  name : String := ""
  kind : Kind := .plain
  /-- The name of the context parameter; empty if there is none or it has no name. -/
  contextArg : String := ""
  updateArg : Option String := none
  /-- The place of the state update among the results, counted from one; zero if there is none. -/
  updateIndex : Nat := 0
deriving Repr, DecidableEq, Inhabited

/-- A step of a state machine. -/
structure Step where
  signature : Signature
  transitions : List Transition := []
  /-- The place of the repeat among the transitions, once there is one. -/
  repeatIndex? : Option Nat := none
  /-- The steps written inside this one. -/
  subSteps : List Step := []
  usages : NameSet := .empty
  /-- The handlers that may be in force while the step runs. -/
  migrations : NameSet := .empty
  /-- The place of the step in its machine, counted from one; zero before it is registered. -/
  number : Nat := 0
  duplicate : Bool := false
  isSubroutine : Bool := false
deriving Inhabited

namespace Step

/-- The name of a step. -/
def name (step : Step) : String := step.signature.name

/-- The kind of a step. -/
def kind (step : Step) : Kind := step.signature.kind

/-- A name is a handler that the step does not have yet. -/
def lacks (step : Step) (migration : String) : Bool :=
  !migration.isEmpty && decide (migration ∉ step.migrations)

/-- Adds a handler; an empty name is none. -/
def addMigration (step : Step) (migration : String) : Step :=
  if step.lacks migration then { step with migrations := step.migrations.insert migration } else step

/-- Adds handlers. -/
def addMigrations (step : Step) (migrations : List String) : Step :=
  migrations.foldl addMigration step

/-- The step without its handlers. -/
def withoutHandlers (step : Step) : Step := { step with migrations := .empty }

@[simp] theorem name_withoutHandlers (step : Step) : step.withoutHandlers.name = step.name := rfl

theorem withoutHandlers_addMigration (step : Step) (migration : String) :
    (step.addMigration migration).withoutHandlers = step.withoutHandlers := by
  unfold addMigration
  split <;> rfl

theorem withoutHandlers_addMigrations (step : Step) (migrations : List String) :
    (step.addMigrations migrations).withoutHandlers = step.withoutHandlers := by
  unfold addMigrations
  induction migrations generalizing step with
  | nil => rfl
  | cons migration migrations ih => rw [List.foldl_cons, ih, withoutHandlers_addMigration]

theorem map_name_congr {first second : List Step}
    (same : first.map withoutHandlers = second.map withoutHandlers) : first.map name = second.map name := by
  have named : ∀ steps : List Step, steps.map name = (steps.map withoutHandlers).map name := fun steps => by
    rw [List.map_map]
    rfl
  rw [named, same, ← named]

@[simp] theorem name_addMigrations (step : Step) (migrations : List String) :
    (step.addMigrations migrations).name = step.name := by
  rw [← name_withoutHandlers, withoutHandlers_addMigrations, name_withoutHandlers]

/-- Adds a transition. A repeat brings its handler into the step and is folded into the repeat
before it, whose condition is limited to about `limit` bytes. -/
def addTransition (step : Step) (limit : Nat) (transition : Transition) : Step :=
  if transition.isRepeat then
    let step := step.addMigration transition.migration
    match step.repeatIndex? with
    | none =>
      { step with transitions := step.transitions ++ [transition], repeatIndex? := some step.transitions.length }
    | some index => { step with transitions := step.transitions.modify index (·.fold limit transition) }
  else { step with transitions := step.transitions ++ [transition] }

end Step

end StepChart
