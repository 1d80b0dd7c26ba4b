import StepChart.Machine.Basic
import StepChart.Proofs.Step.Inner

/-!
# Registration

Whatever happens while a step is registered, a machine only marks a step as a duplicate or stores a
new one. `Machine.add_induction` is the induction over both, for a step and all steps inside it.
-/

namespace StepChart

namespace Machine

section Induction

variable {p : Step → Prop} {good : Machine → Prop}

mutual

/-- **Induction over registration**: what marking a duplicate and storing a new step keep is kept. -/
theorem add_induction (mark : ∀ machine name, good machine → good (machine.markDuplicate name))
    (store : ∀ machine step, p step → machine.has step.name = false → good machine →
      good (machine.store { step with subSteps := [] })) (untyped : Bool) :
    (step : Step) → step.Everywhere p → (machine : Machine) → good machine → good (machine.add untyped step)
  | ⟨signature, transitions, repeatIndex, subSteps, usages, migrations, number, duplicate, isSubroutine⟩, every, machine,
    ok => by
    simp only [add]
    split
    · exact ok
    · split
      · exact mark _ _ ok
      · rename_i fresh
        cases every with
        | intro here inside =>
          refine addAll_induction mark store subSteps inside _ ?_
          exact store machine _ here (by simpa [Step.name] using fresh) ok

theorem addAll_induction (mark : ∀ machine name, good machine → good (machine.markDuplicate name))
    (store : ∀ machine step, p step → machine.has step.name = false → good machine →
      good (machine.store { step with subSteps := [] })) :
    (steps : List Step) → (∀ step ∈ steps, step.Everywhere p) → (machine : Machine) → good machine →
      good (machine.addAll steps)
  | [], _, machine, ok => by simpa only [addAll] using ok
  | step :: rest, every, machine, ok => by
    simp only [addAll]
    refine addAll_induction mark store rest (fun other member => every other (List.mem_cons_of_mem _ member)) _ ?_
    exact add_induction mark store true step (every step List.mem_cons_self) machine ok

end

end Induction

theorem mem_insertStep {step other : Step} {steps : List Step} (member : other ∈ insertStep step steps) :
    other = step ∨ other ∈ steps := by
  induction steps with
  | nil => exact .inl (List.mem_singleton.1 member)
  | cons first rest ih =>
    simp only [insertStep] at member
    split at member
    · exact List.mem_cons.1 member
    · split at member
      · exact .inr member
      · rcases List.mem_cons.1 member with rfl | member
        · exact .inr List.mem_cons_self
        · exact (ih member).imp_right (List.mem_cons_of_mem _)

end Machine

end StepChart
