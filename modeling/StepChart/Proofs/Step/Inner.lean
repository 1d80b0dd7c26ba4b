import StepChart.Step.Basic

/-!
# Steps inside a step

`Step.inner` lists the steps inside a step at all depths, in the order in which they are registered.
-/

namespace StepChart.Step

mutual

/-- The steps inside a step, at all depths, each before the steps inside it. -/
def inner : Step → List Step
  | ⟨_, _, _, subSteps, _, _, _, _, _⟩ => innerAll subSteps

/-- The steps of a list and those inside them. -/
def innerAll : List Step → List Step
  | [] => []
  | step :: rest => step :: (step.inner ++ innerAll rest)

end

theorem inner_eq (step : Step) : step.inner = innerAll step.subSteps := by
  cases step
  rfl

theorem innerAll_eq_flatMap (steps : List Step) : innerAll steps = steps.flatMap fun step => step :: step.inner := by
  induction steps with
  | nil => rfl
  | cons step rest ih => rw [innerAll, ih, List.flatMap_cons, List.cons_append]

theorem mem_inner {step other : Step} :
    other ∈ step.inner ↔ ∃ sub ∈ step.subSteps, other = sub ∨ other ∈ sub.inner := by
  rw [inner_eq, innerAll_eq_flatMap, List.mem_flatMap]
  simp only [List.mem_cons]

/-- A property of a step and of all steps inside it. -/
inductive Everywhere (p : Step → Prop) : Step → Prop
  | intro {step : Step} (here : p step) (inside : ∀ sub ∈ step.subSteps, Everywhere p sub) : Everywhere p step

mutual

theorem everywhere_of {p : Step → Prop} : (step : Step) → (∀ other ∈ step :: step.inner, p other) → step.Everywhere p
  | ⟨_, _, _, subSteps, _, _, _, _, _⟩, every =>
    .intro (every _ List.mem_cons_self) (everywhere_of_innerAll subSteps fun other within =>
      every other (List.mem_cons_of_mem _ within))

theorem everywhere_of_innerAll {p : Step → Prop} : (steps : List Step) → (∀ other ∈ innerAll steps, p other) →
    ∀ step ∈ steps, step.Everywhere p
  | [], _, _, member => absurd member List.not_mem_nil
  | first :: rest, every, step, member => by
    rw [innerAll, ← List.cons_append] at every
    rcases List.mem_cons.1 member with isFirst | later
    · rw [isFirst]
      exact everywhere_of first fun other within => every other (List.mem_append_left _ within)
    · exact everywhere_of_innerAll rest (fun other within => every other (List.mem_append_right _ within)) step later

end

end StepChart.Step
