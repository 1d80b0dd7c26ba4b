import StepChart.Proofs.Machine.Names

/-!
# What propagation does not see

Spreading handlers looks at the names of steps, at their handlers, and at what their transitions say except for
the conditions. A change of steps that leaves all this alone is `Unseen`: it makes no difference whether it is made
before handlers are spread or afterwards (`Unseen.propagate`).
-/

namespace StepChart

/-- The transition with its condition put into other words. -/
def Transition.reword (words : String → String) (transition : Transition) : Transition :=
  { transition with condition := words transition.condition }

/-- The change leaves names and handlers alone, and changes nothing about transitions but the words of their
conditions. -/
structure Unseen (change : Step → Step) (words : String → String) : Prop where
  name : ∀ step, (change step).name = step.name
  withMigrations : ∀ (step : Step) migrations, change { step with migrations } = { change step with migrations }
  withTransitions : ∀ (step : Step) transitions,
    change { step with transitions } = { change step with transitions := transitions.map (·.reword words) }

/-- The machine with changed steps, if the change keeps names. -/
def Machine.mapSteps (change : Step → Step) (keeps : ∀ step, (change step).name = step.name) (machine : Machine) :
    Machine :=
  machine.withSteps (machine.steps.map change) (by
    rw [List.map_map]
    exact List.map_congr_left fun step _ => keeps step)

/-- The state of spreading with changed steps. -/
def Spread.mapSteps (change : Step → Step) (spread : Spread) : Spread :=
  { spread with steps := spread.steps.map change }

namespace Unseen

variable {change : Step → Step} {words : String → String} (unseen : Unseen change words)

include unseen

/-! ## Steps -/

theorem migrations (step : Step) : (change step).migrations = step.migrations := by
  have same := congrArg (·.migrations) (unseen.withMigrations step step.migrations)
  cases step
  exact same

theorem transitions (step : Step) : (change step).transitions = step.transitions.map (·.reword words) := by
  have same := congrArg (·.transitions) (unseen.withTransitions step step.transitions)
  cases step
  exact same

/-- What does not show the condition of a transition is the same after the change. -/
theorem flatMap_transitions {β : Type} {view : Transition → List β}
    (blind : ∀ transition : Transition, view (transition.reword words) = view transition) (step : Step) :
    (change step).transitions.flatMap view = step.transitions.flatMap view := by
  rw [unseen.transitions, List.flatMap_map]
  simp only [blind]

theorem lacks (step : Step) : (change step).lacks = step.lacks := by
  funext migration
  rw [Step.lacks, Step.lacks, unseen.migrations]

theorem addMigration (step : Step) (migration : String) :
    (change step).addMigration migration = change (step.addMigration migration) := by
  unfold Step.addMigration
  rw [unseen.lacks]
  split
  · rw [unseen.withMigrations, unseen.migrations]
  · rfl

theorem addMigrations (step : Step) (migrations : List String) :
    (change step).addMigrations migrations = change (step.addMigrations migrations) :=
  List.foldl_hom change fun step migration => unseen.addMigration step migration

theorem find?_name (steps : List Step) (name : String) :
    (steps.map change).find? (·.name == name) = (steps.find? (·.name == name)).map change := by
  rw [List.find?_map]
  simp only [Function.comp_def, unseen.name]

/-! ## Spreading -/

theorem give (spread : Spread) (target : String) (migrations : List String) :
    (spread.mapSteps change).give target migrations = (spread.give target migrations).mapSteps change := by
  unfold Spread.give
  simp only [Spread.mapSteps, unseen.find?_name]
  cases spread.steps.find? (·.name == target) with
  | none => rfl
  | some step =>
    simp only [Option.map_some, unseen.lacks]
    split
    · simp only [List.map_map, Spread.mk.injEq, and_true]
      refine List.map_congr_left fun other _ => ?_
      simp only [Function.comp_apply, unseen.name]
      split
      · exact unseen.addMigrations other migrations
      · rfl
    · rfl

theorem foldl_give {α : Type} (target : α → String) (migrations : α → List String) (gifts : List α)
    (spread : Spread) :
    gifts.foldl (fun spread gift => spread.give (target gift) (migrations gift)) (spread.mapSteps change) =
      (gifts.foldl (fun spread gift => spread.give (target gift) (migrations gift)) spread).mapSteps change :=
  List.foldl_hom (Spread.mapSteps change) fun spread gift => unseen.give spread (target gift) (migrations gift)

theorem visit (spread : Spread) (name : String) :
    (spread.mapSteps change).visit name = (spread.visit name).mapSteps change := by
  unfold Spread.visit
  have pending : (spread.mapSteps change).pending = spread.pending := rfl
  rw [pending]
  split
  · simp only [Spread.mapSteps, unseen.find?_name]
    cases spread.steps.find? (·.name == name) with
    | none => rfl
    | some step =>
      simp only [Option.map_some, unseen.migrations]
      rw [unseen.flatMap_transitions fun _ => rfl]
      exact unseen.foldl_give id (fun _ => step.migrations.toList) _
        { spread with pending := spread.pending.filter (· != name) }
  · rfl

theorem pass (order : List String) (spread : Spread) :
    (spread.mapSteps change).pass order = (spread.pass order).mapSteps change := by
  change order.foldl Spread.visit (Spread.mapSteps change { spread with changed := false }) = _
  exact List.foldl_hom (Spread.mapSteps change) fun spread name => unseen.visit spread name

theorem passes (order : List String) (bound : Nat) (spread : Spread) :
    (spread.mapSteps change).passes order bound = (spread.passes order bound).mapSteps change := by
  induction bound generalizing spread with
  | zero => rfl
  | succ bound ih =>
    simp only [Spread.passes, unseen.pass]
    have changed : ((spread.pass order).mapSteps change).changed = (spread.pass order).changed := rfl
    rw [changed]
    split
    · exact ih _
    · rfl

/-! ## Machines -/

theorem names (machine : Machine) : (machine.mapSteps change unseen.name).names = machine.names := by
  unfold Machine.names Machine.mapSteps Machine.withSteps
  rw [List.map_map]
  exact List.map_congr_left fun step _ => unseen.name step

theorem resolveStep (machine : Machine) (step : Step) :
    (machine.mapSteps change unseen.name).resolveStep (change step) = change (machine.resolveStep step) := by
  have looked : (machine.mapSteps change unseen.name).resolve ∘ (·.reword words) =
      (·.reword words) ∘ machine.resolve := by
    funext transition
    simp only [Function.comp_apply, Machine.resolve, Machine.key?_congr (unseen.names machine)]
    rfl
  unfold Machine.resolveStep
  rw [unseen.withTransitions, unseen.transitions, List.map_map, List.map_map, looked]

theorem resolveAll (machine : Machine) :
    (machine.mapSteps change unseen.name).resolveAll = machine.resolveAll.mapSteps change unseen.name := by
  refine Machine.ext rfl rfl rfl rfl ?_
  simp only [Machine.resolveAll, Machine.withSteps]
  change (machine.steps.map change).map _ = (machine.steps.map machine.resolveStep).map change
  rw [List.map_map, List.map_map]
  exact List.map_congr_left fun step _ => unseen.resolveStep machine step

theorem passBound (machine : Machine) : (machine.mapSteps change unseen.name).passBound = machine.passBound := by
  simp only [Machine.passBound, Machine.size, Machine.mapSteps, Machine.withSteps, List.foldl_map, List.length_map,
    unseen.migrations, unseen.transitions]

theorem flatMap_seeds (machine : Machine) :
    (machine.mapSteps change unseen.name).steps.flatMap (fun step => step.transitions.flatMap Transition.seeds) =
      machine.steps.flatMap fun step => step.transitions.flatMap Transition.seeds := by
  have blind : ∀ transition : Transition, (transition.reword words).seeds = transition.seeds := fun _ => rfl
  unfold Machine.mapSteps Machine.withSteps
  rw [List.flatMap_map]
  simp only [unseen.flatMap_transitions blind]

/-- **Propagation commutes with an unseen change.** -/
theorem propagate (machine : Machine) :
    (machine.mapSteps change unseen.name).propagate = machine.propagate.mapSteps change unseen.name := by
  have spread : ∀ other : Machine, other.propagate.steps =
      (((other.resolveAll.steps.flatMap fun step => step.transitions.flatMap Transition.seeds).foldl
        (fun spread seed => spread.give seed.1 [seed.2]) (Spread.mk other.resolveAll.steps [] false)).passes
          other.resolveAll.names other.resolveAll.passBound).steps := fun _ => rfl
  have start : ∀ resolved : Machine, Spread.mk (resolved.mapSteps change unseen.name).steps [] false =
      (Spread.mk resolved.steps [] false).mapSteps change := fun _ => rfl
  have steps : (machine.propagate.mapSteps change unseen.name).steps = machine.propagate.steps.map change := rfl
  refine Machine.ext rfl rfl rfl rfl ?_
  rw [steps, spread, spread, unseen.resolveAll, unseen.flatMap_seeds, start, unseen.names, unseen.passBound,
    unseen.foldl_give Prod.fst fun seed => [seed.2], unseen.passes]
  rfl

end Unseen

end StepChart
