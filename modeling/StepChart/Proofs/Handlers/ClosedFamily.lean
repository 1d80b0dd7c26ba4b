import StepChart.Proofs.Handlers.Schedule
import StepChart.Proofs.Machine.Names

/-!
# Closed families of handler sets

A family of handler sets is closed for a machine if it has what the steps have and what transitions
bring along, and if a step that has more than it had at first passes all of it on. The definitions
speak of names as they stand in the transitions; `closedOver_resolveAll` ties them to the steps in
which the names have been looked up, on which propagation works.
-/

namespace StepChart

open Text

namespace Machine

variable {machine : Machine}

/-! ## Closed families -/

/-- The handlers of each step. -/
def handlers (machine : Machine) : Family := heldIn machine.steps

/-- No step has an empty handler. `Step.addMigration` never adds one. -/
def HandlersNamed (machine : Machine) : Prop := ∀ step ∈ machine.steps, "" ∉ step.migrations

instance : Decidable machine.HandlersNamed :=
  inferInstanceAs (Decidable (∀ step ∈ machine.steps, "" ∉ step.migrations))

/-- The handlers that transitions bring along for a step: it is the destination, the step that runs
after the subroutine, or the handler itself. -/
def seedsOf (machine : Machine) : Family := fun name =>
  {handler | handler ≠ "" ∧ ∃ step ∈ machine.steps, ∃ transition ∈ step.transitions, transition.migration = handler ∧
    (machine.key? transition.destination = some name ∨ machine.key? transition.resumption = some name ∨
      machine.key? transition.migration = some name)}

/-- A step passes handlers on to another one: to the destination of a transition that inherits them, or
to the step that runs after a subroutine. -/
def PassesTo (machine : Machine) (source target : String) : Prop :=
  ∃ step ∈ machine.steps, step.name = source ∧ ∃ transition ∈ step.transitions,
    (transition.inherits = true ∧ machine.key? transition.destination = some target) ∨
      machine.key? transition.resumption = some target

/-- A family that has the handlers of the machine and of its transitions, and in which a step that has
gained a handler passes all its handlers on. -/
structure Closed (machine : Machine) (family : Family) : Prop where
  held : ∀ name, machine.handlers name ∪ machine.seedsOf name ⊆ family name
  inherited : ∀ source target, machine.PassesTo source target → family source ≠ machine.handlers source →
    family source ⊆ family target

/-! ## Resolved steps -/

@[simp] theorem handlers_resolveAll : machine.resolveAll.handlers = machine.handlers := by
  funext name
  ext handler
  constructor
  · rintro ⟨_, resolved, named, held⟩
    obtain ⟨step, member, rfl⟩ := mem_resolveAll_iff.1 resolved
    exact ⟨step, member, named, held⟩
  · rintro ⟨step, member, named, held⟩
    exact ⟨machine.resolveStep step, mem_resolveAll member, named, held⟩

theorem mem_heirs_resolve {transition : Transition} {heir : String} :
    heir ∈ (machine.resolve transition).heirs ↔
      (transition.inherits = true ∧ machine.key? transition.destination = some heir) ∨
        machine.key? transition.resumption = some heir := by
  rw [Transition.mem_heirs]
  simp only [resolve]

theorem mem_seeds_resolve {transition : Transition} {name handler : String} :
    (name, handler) ∈ (machine.resolve transition).seeds ↔ handler ≠ "" ∧ transition.migration = handler ∧
      (machine.key? transition.destination = some name ∨ machine.key? transition.resumption = some name ∨
        machine.key? transition.migration = some name) := by
  rw [Transition.mem_seeds]
  simp only [resolve]

theorem mem_heirsIn_resolveAll {source target : String} :
    target ∈ heirsIn machine.resolveAll.steps source ↔ machine.PassesTo source target := by
  constructor
  · rintro ⟨_, resolved, named, isHeir⟩
    obtain ⟨step, isStep, rfl⟩ := mem_resolveAll_iff.1 resolved
    obtain ⟨_, resolved, isHeir⟩ := List.mem_flatMap.1 isHeir
    obtain ⟨transition, isTransition, rfl⟩ := List.mem_map.1 resolved
    exact ⟨step, isStep, named, transition, isTransition, mem_heirs_resolve.1 isHeir⟩
  · rintro ⟨step, isStep, named, transition, isTransition, passes⟩
    exact ⟨machine.resolveStep step, mem_resolveAll isStep, named,
      List.mem_flatMap.2 ⟨machine.resolve transition, List.mem_map_of_mem isTransition, mem_heirs_resolve.2 passes⟩⟩

theorem mem_seedsIn_resolveAll {name handler : String} :
    (name, handler) ∈ seedsIn machine.resolveAll.steps ↔ handler ∈ machine.seedsOf name := by
  constructor
  · intro member
    obtain ⟨_, resolved, seed⟩ := List.mem_flatMap.1 member
    obtain ⟨step, isStep, rfl⟩ := mem_resolveAll_iff.1 resolved
    obtain ⟨_, resolved, seed⟩ := List.mem_flatMap.1 seed
    obtain ⟨transition, isTransition, rfl⟩ := List.mem_map.1 resolved
    obtain ⟨nonempty, same, found⟩ := mem_seeds_resolve.1 seed
    exact ⟨nonempty, step, isStep, transition, isTransition, same, found⟩
  · rintro ⟨nonempty, step, isStep, transition, isTransition, same, found⟩
    have seed : (name, handler) ∈ (machine.resolve transition).seeds := mem_seeds_resolve.2 ⟨nonempty, same, found⟩
    exact List.mem_flatMap.2 ⟨machine.resolveStep step, mem_resolveAll isStep,
      List.mem_flatMap.2 ⟨machine.resolve transition, List.mem_map_of_mem isTransition, seed⟩⟩

theorem closedOver_resolveAll {family : Family} :
    ClosedOver machine.resolveAll.steps family ↔ machine.Closed family := by
  have held : heldIn machine.resolveAll.steps = machine.handlers := handlers_resolveAll
  constructor
  · rintro ⟨has, seeded, inherited⟩
    rw [held] at has inherited
    refine ⟨fun name => Set.union_subset (has name) fun handler seed => ?_, fun source target passes more => ?_⟩
    · exact seeded (name, handler) (mem_seedsIn_resolveAll.2 seed)
    · exact inherited source more target (mem_heirsIn_resolveAll.2 passes)
  · rintro ⟨has, inherited⟩
    refine ⟨fun name => ?_, fun seed member => ?_, fun name more heir isHeir => ?_⟩
    · rw [held]
      exact Set.subset_union_left.trans (has name)
    · exact has seed.1 (.inr (mem_seedsIn_resolveAll.1 member))
    · exact inherited name heir (mem_heirsIn_resolveAll.1 isHeir) (held ▸ more)

theorem ready_resolveAll (named : machine.HandlersNamed) : Ready machine.resolveAll.steps where
  distinct := machine.resolveAll.names_nodup
  heirs := by
    intro name heir isHeir
    change heir ∈ machine.resolveAll.names
    rw [names_resolveAll]
    obtain ⟨_, _, _, _, _, ⟨_, found⟩ | found⟩ := mem_heirsIn_resolveAll.1 isHeir
    · exact mem_names_of_key? found
    · exact mem_names_of_key? found
  named := by
    intro name
    change "" ∉ machine.resolveAll.handlers name
    rw [handlers_resolveAll]
    rintro ⟨step, member, _, held⟩
    exact named step member held

theorem passBound_eq : machine.passBound = machine.steps.length * (Spread.occurring machine.steps).length + 1 := by
  have total : ∀ (steps : List Step) (count : Nat),
      steps.foldl (fun total step => total + step.migrations.toList.length + step.transitions.length) count =
        count + (Spread.occurring steps).length := by
    intro steps
    induction steps with
    | nil => exact fun _ => rfl
    | cons step steps ih =>
      intro count
      rw [List.foldl_cons, ih]
      simp only [Spread.occurring, List.flatMap_cons, List.length_append, List.length_map]
      omega
  simp only [passBound, size, total, Nat.zero_add]

end Machine

end StepChart
