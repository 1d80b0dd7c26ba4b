import StepChart.Machine.Graph
import StepChart.Proofs.Machine.Stored
import StepChart.Proofs.Machine.Unseen
import StepChart.Proofs.Step.Relabel

/-!
# Machines but for the words of conditions

Registering steps and spreading handlers never look at a condition: both commute with `relabel`, for a machine
and for a graph of machines (`Graph.relabel_addSteps`, `Graph.relabel_propagate`).
-/

namespace StepChart

/-! ## Registration -/

namespace Machine

variable (word : Bool → String)

/-- The machine with words for the conditions of its steps. -/
def relabel (machine : Machine) : Machine :=
  machine.withSteps (machine.steps.map (Step.relabel word)) (by
    rw [List.map_map]
    exact List.map_congr_left fun step _ => step.name_relabel word)

@[simp] theorem steps_relabel (machine : Machine) :
    (machine.relabel word).steps = machine.steps.map (Step.relabel word) := rfl

@[simp] theorem names_relabel (machine : Machine) : (machine.relabel word).names = machine.names := by
  rw [names, names, steps_relabel, List.map_map]
  exact List.map_congr_left fun step _ => step.name_relabel word

@[simp] theorem size_relabel (machine : Machine) : (machine.relabel word).size = machine.size := List.length_map _

theorem map_relabel_insertStep (step : Step) (steps : List Step) :
    (insertStep step steps).map (Step.relabel word) =
      insertStep (step.relabel word) (steps.map (Step.relabel word)) := by
  induction steps with
  | nil => rfl
  | cons first rest ih =>
    simp only [insertStep, List.map_cons, Step.name_relabel]
    split
    · rfl
    · split
      · rfl
      · rw [List.map_cons, ih]

theorem relabel_markDuplicate (machine : Machine) (name : String) :
    (machine.markDuplicate name).relabel word = (machine.relabel word).markDuplicate name := by
  refine Machine.ext rfl rfl rfl rfl ?_
  simp only [steps_relabel, markDuplicate, withSteps, List.map_map]
  refine List.map_congr_left fun step _ => ?_
  simp only [Function.comp_apply, Step.name_relabel]
  split
  · cases step
    rfl
  · rfl

theorem relabel_store (machine : Machine) (step : Step) :
    (machine.store step).relabel word = (machine.relabel word).store (step.relabel word) := by
  have numbered : Step.relabel word { step with number := machine.size + 1 } =
      { step.relabel word with number := (machine.relabel word).size + 1 } := by
    rw [size_relabel]
    cases step
    rfl
  refine Machine.ext rfl rfl rfl ?_ ?_
  · simp only [relabel, store, withSteps, Step.kind, Step.signature_relabel]
  · rw [steps_relabel]
    simp only [store]
    rw [map_relabel_insertStep, numbered, steps_relabel]

mutual

/-- Registration does not look at conditions. -/
theorem relabel_add (untyped : Bool) : (step : Step) → (machine : Machine) →
    (machine.add untyped step).relabel word = (machine.relabel word).add untyped (step.relabel word)
  | ⟨_, _, _, _, _, _, _, _, _⟩, machine => by
    rw [add_eq, add_eq, names_relabel, Step.name_relabel, Step.kind, Step.kind, Step.signature_relabel]
    split
    · rfl
    · split
      · exact machine.relabel_markDuplicate word _
      · rw [relabel_addAll, relabel_store]
        rfl

theorem relabel_addAll : (steps : List Step) → (machine : Machine) →
    (machine.addAll steps).relabel word = (machine.relabel word).addAll (Step.relabelAll word steps)
  | [], machine => by
    rw [addAll, Step.relabelAll, addAll]
  | step :: rest, machine => by
    rw [addAll, Step.relabelAll, addAll, relabel_addAll rest, relabel_add true step]

end

end Machine

/-! ## Spreading handlers -/

/-- Putting words for conditions is not seen by propagation. -/
theorem unseen_relabel (word : Bool → String) :
    Unseen (Step.relabel word) fun condition => word condition.isEmpty where
  name step := step.name_relabel word
  withMigrations step _ := by
    cases step
    rfl
  withTransitions step transitions := step.relabel_withTransitions word transitions

/-- Spreading handlers does not look at conditions. -/
theorem Machine.relabel_propagate (word : Bool → String) (machine : Machine) :
    (machine.relabel word).propagate = machine.propagate.relabel word :=
  (unseen_relabel word).propagate machine

/-! ## Graphs -/

namespace Graph

variable (word : Bool → String)

/-- The graph with words for conditions. -/
def relabel (graph : Graph) : Graph := { machines := graph.machines.map (Machine.relabel word) }

theorem relabel_add (output : String) (graph : Graph) (step : Step) :
    (graph.relabel word).add output (step.relabel word) = (graph.add output step).relabel word := by
  have found : ((graph.relabel word).machine? step.signature.receiverType).isSome =
      (graph.machine? step.signature.receiverType).isSome := by
    rw [machine?, relabel, List.find?_map, Option.isSome_map]
    rfl
  unfold add
  dsimp only
  rw [Step.signature_relabel, found]
  split
  · simp only [relabel, List.map_map, Graph.mk.injEq]
    refine List.map_congr_left fun machine _ => ?_
    have receiverType : (machine.relabel word).receiverType = machine.receiverType := rfl
    simp only [Function.comp_apply, receiverType]
    split
    · exact (machine.relabel_add word false step).symm
    · rfl
  · simp only [relabel, List.map_append, List.map_singleton, List.length_map, Machine.relabel_add]
    rfl

theorem relabel_addSteps (graph : Graph) (output : String) (steps : List Step) :
    (graph.addSteps output steps).relabel word =
      (graph.relabel word).addSteps output (steps.map (Step.relabel word)) := by
  unfold addSteps
  rw [List.foldl_map]
  exact (List.foldl_hom (relabel word) fun graph step => relabel_add word output graph step).symm

theorem relabel_propagate (graph : Graph) : graph.propagate.relabel word = (graph.relabel word).propagate := by
  simp only [propagate, relabel, List.map_map, Graph.mk.injEq]
  exact List.map_congr_left fun machine _ => (machine.relabel_propagate word).symm

end Graph

end StepChart
