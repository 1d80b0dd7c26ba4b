import StepChart.Step.Basic

/-!
# Adding transitions

A transition changes nothing about a step but its transitions, the place of the repeat and its handlers. The lemmas say
what becomes of each; the handler of a repeat goes into the step.
-/

namespace StepChart.Step

theorem addMigration_eq (step : Step) (migration : String) :
    step.addMigration migration = { step with migrations := (step.addMigration migration).migrations } := by
  cases step
  unfold addMigration
  split <;> rfl

/-- Only transitions, the place of the repeat and handlers change. -/
theorem addTransition_eq (step : Step) (limit : Nat) (transition : Transition) :
    step.addTransition limit transition =
      { step with
        transitions := (step.addTransition limit transition).transitions
        repeatIndex? := (step.addTransition limit transition).repeatIndex?
        migrations := (step.addTransition limit transition).migrations } := by
  cases step
  unfold addTransition
  split
  · rw [addMigration_eq]
    dsimp only
    split <;> rfl
  · rfl

theorem migrations_addTransition (step : Step) (limit : Nat) (transition : Transition) :
    (step.addTransition limit transition).migrations =
      if transition.isRepeat then (step.addMigration transition.migration).migrations else step.migrations := by
  unfold addTransition
  split
  · dsimp only
    split <;> rfl
  · rfl

/-- A transition is folded into the repeat if there is one and it is a repeat too; else it is the last one. -/
theorem transitions_addTransition (step : Step) (limit : Nat) (transition : Transition) :
    (step.addTransition limit transition).transitions =
      match step.repeatIndex?, transition.isRepeat with
      | some index, true => step.transitions.modify index (·.fold limit transition)
      | _, _ => step.transitions ++ [transition] := by
  unfold addTransition
  rw [addMigration_eq]
  cases transition.isRepeat with
  | false => simp
  | true => cases step.repeatIndex? <;> simp

/-- The first repeat is given the place at the end, and keeps it. -/
theorem repeatIndex?_addTransition (step : Step) (limit : Nat) (transition : Transition) :
    (step.addTransition limit transition).repeatIndex? =
      if transition.isRepeat then some (step.repeatIndex?.getD step.transitions.length) else step.repeatIndex? := by
  unfold addTransition
  rw [addMigration_eq]
  cases transition.isRepeat with
  | false => simp
  | true => cases step.repeatIndex? <;> simp

/-- The first transition of a step is added as it is, and brings no handler if it has none. -/
theorem addTransition_first {step : Step} (first : step.transitions = []) (noRepeat : step.repeatIndex? = none)
    (limit : Nat) {transition : Transition} (noHandler : transition.migration = "") :
    step.addTransition limit transition =
      { step with
        transitions := [transition]
        repeatIndex? := if transition.isRepeat then some 0 else none } := by
  have unchanged : step.addMigration transition.migration = step := by
    rw [noHandler]
    rfl
  rw [addTransition_eq, transitions_addTransition, repeatIndex?_addTransition, migrations_addTransition, unchanged,
    noRepeat, first, ite_self]
  rfl

end StepChart.Step
