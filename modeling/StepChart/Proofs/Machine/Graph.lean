import StepChart.Machine.Graph
import StepChart.Proofs.Machine.Stored

/-!
# The machines of a graph

Registering steps in a graph comes to registering, for each receiver type, the steps of this type in a
machine of their own, in the same order (`addSteps_eq_register`).
-/

namespace StepChart

namespace Machine

/-- The machine as it was made, before any step was registered. -/
def blank (machine : Machine) : Machine :=
  { receiverType := machine.receiverType, output := machine.output, sequence := machine.sequence }

/-- Registration changes nothing about a machine but its steps. -/
theorem blank_add (machine : Machine) (untyped : Bool) (step : Step) : (machine.add untyped step).blank = machine.blank := by
  have mark : ∀ (after : Machine) (name : String), after.blank = machine.blank →
      (after.markDuplicate name).blank = machine.blank := fun _ _ same => same
  have every : step.Everywhere fun _ => True := Step.everywhere_of step fun _ _ => trivial
  exact add_induction mark (fun _ _ _ _ same => same) untyped step every machine rfl

theorem receiverType_add (machine : Machine) (untyped : Bool) (step : Step) :
    (machine.add untyped step).receiverType = machine.receiverType := by
  have same := congrArg Machine.receiverType (machine.blank_add untyped step)
  exact same

theorem output_add (machine : Machine) (untyped : Bool) (step : Step) :
    (machine.add untyped step).output = machine.output := by
  have same := congrArg Machine.output (machine.blank_add untyped step)
  exact same

theorem sequence_add (machine : Machine) (untyped : Bool) (step : Step) :
    (machine.add untyped step).sequence = machine.sequence := by
  have same := congrArg Machine.sequence (machine.blank_add untyped step)
  exact same

theorem register_append (machine : Machine) (steps : List Step) (step : Step) :
    machine.register (steps ++ [step]) = (machine.register steps).add false step := by
  unfold register
  rw [List.foldl_append]
  rfl

end Machine

namespace Graph

/-- The steps of a receiver type. -/
def ofType (receiverType : String) (steps : List Step) : List Step :=
  steps.filter (·.signature.receiverType == receiverType)

theorem ofType_append_of_eq {receiverType : String} {step : Step} (same : step.signature.receiverType = receiverType)
    (steps : List Step) : ofType receiverType (steps ++ [step]) = ofType receiverType steps ++ [step] := by
  simp [ofType, same]

theorem ofType_append_of_ne {receiverType : String} {step : Step} (other : step.signature.receiverType ≠ receiverType)
    (steps : List Step) : ofType receiverType (steps ++ [step]) = ofType receiverType steps := by
  simp [ofType, other]

theorem isEmpty_iff {graph : Graph} : graph.isEmpty = true ↔ ∀ machine ∈ graph.machines, machine.steps = [] := by
  simp [isEmpty, Machine.isEmpty]

section Add

variable {graph : Graph} {output : String} {step : Step}

/-- All that registration of a step does to machines: that of its type takes the step in, and is made if it is not
there; the others are left as they are. -/
theorem add_cases {machine : Machine} (member : machine ∈ (graph.add output step).machines) :
    (machine ∈ graph.machines ∧ machine.receiverType ≠ step.signature.receiverType) ∨
    (∃ old ∈ graph.machines, old.receiverType = step.signature.receiverType ∧ machine = old.add false step) ∨
    (∀ old ∈ graph.machines, old.receiverType ≠ step.signature.receiverType) ∧
      machine = Machine.add false step
        { receiverType := step.signature.receiverType, output, sequence := graph.machines.length } := by
  unfold Graph.add at member
  dsimp only at member
  split at member
  · obtain ⟨old, isOld, rfl⟩ := List.mem_map.1 member
    split
    · next isType => exact .inr (.inl ⟨old, isOld, isType, rfl⟩)
    · next notType => exact .inl ⟨isOld, notType⟩
  · next absent =>
    have none : ∀ old ∈ graph.machines, old.receiverType ≠ step.signature.receiverType := by
      simpa [machine?, List.find?_isSome] using absent
    rcases List.mem_append.1 member with old | new
    · exact .inl ⟨old, none machine old⟩
    · exact .inr (.inr ⟨none, List.mem_singleton.1 new⟩)

theorem exists_mem_add_of_mem {old : Machine} (isOld : old ∈ graph.machines) :
    ∃ machine ∈ (graph.add output step).machines, machine.receiverType = old.receiverType := by
  unfold Graph.add
  dsimp only
  split
  · refine ⟨_, List.mem_map_of_mem isOld, ?_⟩
    split
    · exact old.receiverType_add false step
    · rfl
  · exact ⟨old, List.mem_append_left _ isOld, rfl⟩

theorem exists_mem_add_self :
    ∃ machine ∈ (graph.add output step).machines, machine.receiverType = step.signature.receiverType := by
  by_cases found : ∃ old ∈ graph.machines, old.receiverType = step.signature.receiverType
  · obtain ⟨old, isOld, isType⟩ := found
    rw [← isType]
    exact exists_mem_add_of_mem isOld
  · have absent : ¬ (graph.machine? step.signature.receiverType).isSome = true := by
      simpa [machine?, List.find?_isSome] using found
    unfold Graph.add
    rw [if_neg absent]
    exact ⟨_, List.mem_append_right _ (List.mem_singleton.2 rfl), Machine.receiverType_add _ _ _⟩

end Add

/-- The machines of the graph are those of the steps that have been registered. -/
structure Holds (graph : Graph) (done : List Step) : Prop where
  registered : ∀ machine ∈ graph.machines, machine = machine.blank.register (ofType machine.receiverType done)
  present : ∀ step ∈ done, ∃ machine ∈ graph.machines, machine.receiverType = step.signature.receiverType

theorem Holds.add {graph : Graph} {done : List Step} (holds : graph.Holds done) (output : String) (step : Step) :
    (graph.add output step).Holds (done ++ [step]) := by
  constructor
  · intro machine member
    rcases add_cases member with ⟨isOld, notType⟩ | ⟨old, isOld, isType, rfl⟩ | ⟨none, rfl⟩
    · rw [ofType_append_of_ne notType.symm, ← holds.registered machine isOld]
    · rw [Machine.blank_add, Machine.receiverType_add, ofType_append_of_eq isType.symm, Machine.register_append,
        ← holds.registered old isOld]
    · have nothing : ofType step.signature.receiverType done = [] := by
        rw [ofType, List.filter_eq_nil_iff]
        intro other isDone same
        obtain ⟨machine, isMachine, isType⟩ := holds.present other isDone
        exact none machine isMachine (isType.trans (beq_iff_eq.1 same))
      rw [Machine.blank_add, Machine.receiverType_add, ofType_append_of_eq rfl, nothing]
      rfl
  · intro other member
    rcases List.mem_append.1 member with old | new
    · obtain ⟨machine, isMachine, isType⟩ := holds.present other old
      rw [← isType]
      exact exists_mem_add_of_mem isMachine
    · rw [List.mem_singleton.1 new]
      exact exists_mem_add_self

theorem Holds.addSteps {graph : Graph} {done : List Step} (holds : graph.Holds done) (output : String)
    (steps : List Step) : (graph.addSteps output steps).Holds (done ++ steps) := by
  unfold Graph.addSteps
  induction steps generalizing graph done with
  | nil => rwa [List.append_nil]
  | cons step rest ih =>
    have onward := ih (holds.add output step)
    rwa [List.append_assoc] at onward

theorem holds_nil : Holds {} [] :=
  ⟨fun _ member => absurd member List.not_mem_nil, fun _ member => absurd member List.not_mem_nil⟩

/-- **The machines of a graph** are made by registering the steps of their types. -/
theorem addSteps_eq_register {output : String} {steps : List Step} {machine : Machine}
    (member : machine ∈ (({} : Graph).addSteps output steps).machines) :
    machine = machine.blank.register (ofType machine.receiverType steps) :=
  (holds_nil.addSteps output steps).registered machine member

/-- Registers the steps of files, each with the output of the file. -/
def registerFiles (graph : Graph) (files : List (String × List Step)) : Graph :=
  files.foldl (fun graph file => graph.addSteps file.1 file.2) graph

theorem Holds.registerFiles {graph : Graph} {done : List Step} (holds : graph.Holds done)
    (files : List (String × List Step)) : (graph.registerFiles files).Holds (done ++ files.flatMap (·.2)) := by
  induction files generalizing graph done with
  | nil => rwa [List.flatMap_nil, List.append_nil]
  | cons file rest ih =>
    have onward := ih (holds.addSteps file.1 file.2)
    rwa [List.append_assoc] at onward

end Graph

end StepChart
