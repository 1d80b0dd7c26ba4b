import StepChart.Machine.Basic

/-!
# Spreading handlers

A migration handler named by a transition is in force in every step the transition leads to. A step
passes its handlers on along the transitions that inherit them, and to the step that runs after a
subroutine. Steps that gained a handler are pending until they have passed it on; passes over all
steps are made until none gains anything.
-/

namespace StepChart

namespace Machine

/-- The transition with its names looked up in the machine. -/
def resolve (machine : Machine) (transition : Transition) : Transition :=
  { transition with targets := {
      destination := machine.key? transition.destination
      resumption := machine.key? transition.resumption
      migration := machine.key? transition.migration } }

/-- The step with the names in its transitions looked up. -/
def resolveStep (machine : Machine) (step : Step) : Step :=
  { step with transitions := step.transitions.map machine.resolve }

/-- The machine with the names in all transitions looked up. -/
def resolveAll (machine : Machine) : Machine :=
  machine.withSteps (machine.steps.map machine.resolveStep) (by
    rw [List.map_map]
    rfl)

end Machine

/-- The steps that a transition's own handler is given to. -/
def Transition.seeds (transition : Transition) : List (String × String) :=
  if transition.migration.isEmpty then []
  else
    let targets := transition.targets
    [targets.destination, targets.resumption, targets.migration].filterMap fun target =>
      target.map (·, transition.migration)

/-- The steps that a transition passes the handlers of its step on to. -/
def Transition.heirs (transition : Transition) : List String :=
  (if transition.inherits then transition.targets.destination.toList else [])
    ++ transition.targets.resumption.toList

/-- The state of spreading: the steps, which of them still have to pass their handlers on, and
whether a step has gained a handler since the last pass began. -/
structure Spread where
  steps : List Step
  pending : List String := []
  changed : Bool := false

namespace Spread

/-- Gives handlers to the step `target`, which is pending if it gains one. -/
def give (spread : Spread) (target : String) (migrations : List String) : Spread :=
  match spread.steps.find? (·.name == target) with
  | none => spread
  | some step =>
    if migrations.any step.lacks then
      { steps := spread.steps.map fun step => if step.name = target then step.addMigrations migrations else step
        pending := target :: spread.pending.filter (· != target)
        changed := true }
    else spread

/-- Lets the step `name` pass its handlers on if it is pending. -/
def visit (spread : Spread) (name : String) : Spread :=
  if spread.pending.contains name then
    let spread := { spread with pending := spread.pending.filter (· != name) }
    match spread.steps.find? (·.name == name) with
    | none => spread
    | some step =>
      (step.transitions.flatMap Transition.heirs).foldl (fun spread heir =>
        spread.give heir step.migrations.toList) spread
  else spread

/-- Visits all steps in order. -/
def pass (names : List String) (spread : Spread) : Spread :=
  names.foldl visit { spread with changed := false }

/-- Makes passes until nothing changes, at most `bound` of them. -/
def passes (names : List String) : (bound : Nat) → Spread → Spread
  | 0, spread => spread
  | bound + 1, spread =>
    let spread := pass names spread
    if spread.changed then passes names bound spread else spread

/-! Spreading leaves everything about the steps but their handlers as it is. -/

/-- The steps without their handlers. -/
def bare (spread : Spread) : List Step := spread.steps.map Step.withoutHandlers

theorem bare_give (spread : Spread) (target : String) (migrations : List String) :
    (spread.give target migrations).bare = spread.bare := by
  unfold give
  split
  · rfl
  · split
    · simp only [bare, List.map_map]
      refine List.map_congr_left fun step _ => ?_
      simp only [Function.comp_apply]
      split
      · exact step.withoutHandlers_addMigrations migrations
      · rfl
    · rfl

theorem bare_foldl_give {α : Type} (target : α → String) (migrations : α → List String) (gifts : List α)
    (spread : Spread) :
    (gifts.foldl (fun spread gift => spread.give (target gift) (migrations gift)) spread).bare = spread.bare := by
  induction gifts generalizing spread with
  | nil => rfl
  | cons gift gifts ih => rw [List.foldl_cons, ih, bare_give]

theorem bare_visit (spread : Spread) (name : String) : (spread.visit name).bare = spread.bare := by
  unfold visit
  split
  · simp only
    split
    · rfl
    · exact bare_foldl_give id _ _ _
  · rfl

theorem bare_pass (order : List String) (spread : Spread) : (spread.pass order).bare = spread.bare := by
  suffices run : ∀ spread : Spread, (order.foldl visit spread).bare = spread.bare from run _
  induction order with
  | nil => exact fun _ => rfl
  | cons name order ih => exact fun spread => by rw [List.foldl_cons, ih, bare_visit]

theorem bare_passes (order : List String) (bound : Nat) (spread : Spread) :
    (spread.passes order bound).bare = spread.bare := by
  induction bound generalizing spread with
  | zero => rfl
  | succ bound ih =>
    simp only [passes]
    split
    · rw [ih, bare_pass]
    · exact bare_pass order spread

end Spread

namespace Machine

/-- More passes than there can be pairs of a step and a handler that it gains: each pass but the
last adds a pair. -/
def passBound (machine : Machine) : Nat :=
  let handlers := machine.steps.foldl
    (fun total step => total + step.migrations.toList.length + step.transitions.length) 0
  machine.size * handlers + 1

/-- Looks up the names in all transitions and spreads the handlers. -/
def propagate (machine : Machine) : Machine :=
  let machine := machine.resolveAll
  let seeds := machine.steps.flatMap fun step => step.transitions.flatMap Transition.seeds
  let seeded := seeds.foldl (fun spread seed => spread.give seed.1 [seed.2]) (Spread.mk machine.steps [] false)
  machine.withSteps (seeded.passes machine.names machine.passBound).steps
    (Step.map_name_congr ((seeded.bare_passes _ _).trans (Spread.bare_foldl_give _ _ _ _)))

end Machine

end StepChart
