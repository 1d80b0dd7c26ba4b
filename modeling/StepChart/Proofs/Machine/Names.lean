import Mathlib.Data.List.Nodup
import StepChart.Machine.Propagation

/-!
# Names in a machine

The names of a machine are distinct, so a step is found under its name (`step?_name`), and looking up a
name in a transition answers with a registered name. Propagation changes nothing about a step but its
handlers and the names that were looked up (`exists_of_mem_propagate`).
-/

namespace StepChart

/-- A transition without the names that were looked up. -/
def Transition.unresolved (transition : Transition) : Transition := { transition with targets := {} }

/-- Where names are distinct, a step is found under its name. -/
theorem find?_name_eq_some {steps : List Step} (distinct : (steps.map Step.name).Nodup) {step : Step}
    (member : step ∈ steps) : steps.find? (·.name == step.name) = some step := by
  obtain ⟨other, found⟩ : ∃ other, steps.find? (·.name == step.name) = some other := by
    rw [← Option.isSome_iff_exists, List.find?_isSome]
    exact ⟨step, member, by simp⟩
  have named : other.name = step.name := by simpa using List.find?_some found
  rw [found, List.inj_on_of_nodup_map distinct (List.mem_of_find?_eq_some found) member named]

namespace Machine

variable {machine : Machine}

theorem names_nodup (machine : Machine) : machine.names.Nodup := by
  refine List.Pairwise.imp ?_ machine.ascending
  rintro name _ before rfl
  exact String.lt_irrefl name before

theorem step?_name {step : Step} (member : step ∈ machine.steps) : machine.step? step.name = some step :=
  find?_name_eq_some machine.names_nodup member

theorem step?_eq_some_iff {name : String} {step : Step} :
    machine.step? name = some step ↔ step ∈ machine.steps ∧ step.name = name := by
  constructor
  · intro found
    exact ⟨List.mem_of_find?_eq_some found, by simpa using List.find?_some found⟩
  · rintro ⟨member, rfl⟩
    exact step?_name member

theorem has_iff {name : String} : machine.has name = true ↔ name ∈ machine.names := by
  simp [has, names]

/-! ## Looking up names -/

theorem mem_names_of_key? {name key : String} (found : machine.key? name = some key) : key ∈ machine.names := by
  have registered := List.find?_some found
  simp only [Bool.and_eq_true] at registered
  exact has_iff.1 registered.2

/-- A registered name refers to itself. -/
theorem key?_of_mem {name : String} (member : name ∈ machine.names) (nonempty : name ≠ "") :
    machine.key? name = some name := by
  have registered : (!name.isEmpty && machine.has name) = true := by
    rw [has_iff.2 member, Bool.and_true]
    simpa using nonempty
  unfold key?
  rw [List.map_cons, String.ofList_toList]
  exact List.find?_cons_of_pos registered

theorem key?_congr {first second : Machine} (same : first.names = second.names) : first.key? = second.key? := by
  have has : first.has = second.has := by
    funext name
    rw [Bool.eq_iff_iff, has_iff, has_iff, same]
  funext name
  unfold key?
  rw [has]

/-! ## Resolved steps -/

theorem mem_resolveAll_iff {resolved : Step} :
    resolved ∈ machine.resolveAll.steps ↔ ∃ step ∈ machine.steps, machine.resolveStep step = resolved :=
  List.mem_map

theorem mem_resolveAll {step : Step} (member : step ∈ machine.steps) :
    machine.resolveStep step ∈ machine.resolveAll.steps :=
  mem_resolveAll_iff.2 ⟨step, member, rfl⟩

@[simp] theorem names_resolveAll : machine.resolveAll.names = machine.names := by
  simp only [resolveAll, withSteps, names, List.map_map]
  rfl

/-- But for their handlers, the steps after propagation are those in which names have been looked up. -/
theorem bare_propagate : machine.propagate.steps.map Step.withoutHandlers =
    machine.resolveAll.steps.map Step.withoutHandlers :=
  (Spread.bare_passes _ _ _).trans (Spread.bare_foldl_give _ _ _ _)

@[simp] theorem names_propagate : machine.propagate.names = machine.names :=
  (Step.map_name_congr bare_propagate).trans names_resolveAll

@[simp] theorem key?_propagate : machine.propagate.key? = machine.key? :=
  key?_congr names_propagate

/-- A step after propagation comes from a step before it. -/
theorem exists_of_mem_propagate {step : Step} (member : step ∈ machine.propagate.steps) :
    ∃ original ∈ machine.steps, step.withoutHandlers = (machine.resolveStep original).withoutHandlers := by
  have bare : step.withoutHandlers ∈ machine.resolveAll.steps.map Step.withoutHandlers :=
    bare_propagate ▸ List.mem_map_of_mem member
  obtain ⟨_, isResolved, same⟩ := List.mem_map.1 bare
  obtain ⟨original, isOriginal, rfl⟩ := mem_resolveAll_iff.1 isResolved
  exact ⟨original, isOriginal, same.symm⟩

/-- A step before propagation is there after it. -/
theorem exists_mem_propagate {original : Step} (member : original ∈ machine.steps) :
    ∃ step ∈ machine.propagate.steps, step.withoutHandlers = (machine.resolveStep original).withoutHandlers := by
  have bare : (machine.resolveStep original).withoutHandlers ∈ machine.propagate.steps.map Step.withoutHandlers :=
    bare_propagate ▸ List.mem_map_of_mem (mem_resolveAll member)
  obtain ⟨step, isStep, same⟩ := List.mem_map.1 bare
  exact ⟨step, isStep, same⟩

theorem name_of_bare {original step : Step}
    (same : step.withoutHandlers = (machine.resolveStep original).withoutHandlers) : step.name = original.name := by
  rw [← Step.name_withoutHandlers, same]
  rfl

theorem transitions_of_bare {original step : Step}
    (same : step.withoutHandlers = (machine.resolveStep original).withoutHandlers) :
    step.transitions = original.transitions.map machine.resolve :=
  congrArg (·.transitions) same

/-- After propagation a name in a transition has been looked up in the machine. -/
theorem targets_propagate {step : Step} (member : step ∈ machine.propagate.steps) {transition : Transition}
    (isTransition : transition ∈ step.transitions) :
    transition.targets = ⟨machine.key? transition.destination, machine.key? transition.resumption,
      machine.key? transition.migration⟩ := by
  obtain ⟨original, -, bare⟩ := exists_of_mem_propagate member
  rw [transitions_of_bare bare] at isTransition
  obtain ⟨before, -, rfl⟩ := List.mem_map.1 isTransition
  rfl

end Machine

end StepChart
