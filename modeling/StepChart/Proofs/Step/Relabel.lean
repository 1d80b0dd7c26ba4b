import StepChart.Step.Basic

/-!
# Steps but for the words of their conditions

`relabel` puts a word for every condition, which may depend only on whether the condition is empty. A step that is
relabelled with one word has its conditions erased; with two words, it shows which conditions are there. What a
transition does to a step is the same but for words, whatever the limit for joined conditions
(`relabel_addTransition`).
-/

namespace StepChart

/-- The transition with a word for its condition. -/
def Transition.relabel (word : Bool → String) (transition : Transition) : Transition :=
  { transition with condition := word transition.condition.isEmpty }

/-- The word that is as empty as the condition. -/
def presence (isEmpty : Bool) : String := if isEmpty then "" else "?"

@[simp] theorem isEmpty_presence (isEmpty : Bool) : (presence isEmpty).isEmpty = isEmpty := by
  cases isEmpty <;> decide

namespace Transition

@[simp] theorem isRepeat_relabel (word : Bool → String) (transition : Transition) :
    (transition.relabel word).isRepeat = transition.isRepeat := rfl

@[simp] theorem relabel_presence (word : Bool → String) (transition : Transition) :
    (transition.relabel presence).relabel word = transition.relabel word := by
  simp [relabel]

theorem map_relabel_presence (word : Bool → String) (transitions : List Transition) :
    (transitions.map (·.relabel presence)).map (·.relabel word) = transitions.map (·.relabel word) := by
  rw [List.map_map]
  exact List.map_congr_left fun transition _ => transition.relabel_presence word

end Transition

namespace Step

mutual

/-- The step with words for the conditions of its transitions and of those of the steps inside it. -/
def relabel (word : Bool → String) : Step → Step
  | ⟨signature, transitions, repeatIndex, subSteps, usages, migrations, number, duplicate, isSubroutine⟩ =>
    ⟨signature, transitions.map (·.relabel word), repeatIndex, relabelAll word subSteps, usages, migrations, number,
      duplicate, isSubroutine⟩

/-- The steps with words for their conditions. -/
def relabelAll (word : Bool → String) : List Step → List Step
  | [] => []
  | step :: rest => step.relabel word :: relabelAll word rest

end

variable (word : Bool → String)

theorem relabelAll_eq_map (steps : List Step) : relabelAll word steps = steps.map (relabel word) := by
  induction steps with
  | nil => rfl
  | cons step rest ih => rw [relabelAll, ih, List.map_cons]

@[simp] theorem name_relabel (step : Step) : (step.relabel word).name = step.name := by
  cases step
  rfl

@[simp] theorem signature_relabel (step : Step) : (step.relabel word).signature = step.signature := by
  cases step
  rfl

@[simp] theorem transitions_relabel (step : Step) :
    (step.relabel word).transitions = step.transitions.map (·.relabel word) := by
  cases step
  rfl

mutual

/-- Only the presence of a condition counts. -/
theorem relabel_presence : (step : Step) → (step.relabel presence).relabel word = step.relabel word
  | ⟨signature, transitions, repeatIndex, subSteps, usages, migrations, number, duplicate, isSubroutine⟩ => by
    simp only [relabel]
    rw [Transition.map_relabel_presence, relabelAll_presence subSteps]

theorem relabelAll_presence : (steps : List Step) →
    relabelAll word (relabelAll presence steps) = relabelAll word steps
  | [] => rfl
  | step :: rest => by
    simp only [relabelAll]
    rw [relabel_presence step, relabelAll_presence rest]

end

/-! ## Handlers -/

@[simp] theorem lacks_relabel (step : Step) : (step.relabel word).lacks = step.lacks := by
  cases step
  rfl

theorem relabel_addMigration (step : Step) (migration : String) :
    (step.addMigration migration).relabel word = (step.relabel word).addMigration migration := by
  unfold addMigration
  rw [lacks_relabel]
  split
  · cases step
    rfl
  · rfl

/-! ## Transitions -/

/-- Conditions that are joined are there if one of them is. -/
theorem isEmpty_joinConditions (limit : Nat) (condition more : String) :
    (Transition.joinConditions limit condition more).isEmpty = (condition.isEmpty && more.isEmpty) := by
  have append : ∀ text : String, (condition ++ text).isEmpty = true → condition.isEmpty = true := by
    intro text
    simp only [String.isEmpty_iff, String.append_eq_empty_iff]
    exact And.left
  unfold Transition.joinConditions
  split
  · next empty => rw [empty, Bool.and_true]
  · split
    · next empty => rw [empty, Bool.true_and]
    · next there =>
      rw [Bool.eq_false_iff.2 there, Bool.false_and, Bool.eq_false_iff]
      split
      · exact there
      · dsimp only
        rw [String.append_assoc]
        split
        · rw [String.append_assoc]
          exact mt (append _) there
        · exact mt (append _) there

theorem relabel_fold (limit : Nat) (first more : Transition) :
    (first.fold limit more).relabel presence =
      ((first.relabel presence).fold 0 (more.relabel presence)).relabel presence := by
  simp [Transition.relabel, Transition.fold, isEmpty_joinConditions]

theorem map_relabel_modify (limit : Nat) (transition : Transition) (transitions : List Transition) (index : Nat) :
    (transitions.modify index (·.fold limit transition)).map (·.relabel presence) =
      ((transitions.map (·.relabel presence)).modify index (·.fold 0 (transition.relabel presence))).map
        (·.relabel presence) := by
  induction transitions generalizing index with
  | nil => simp
  | cons first rest ih =>
    cases index with
    | zero =>
      simp only [List.map_cons, List.modify_zero_cons, Transition.map_relabel_presence]
      rw [relabel_fold]
    | succ index =>
      simp only [List.map_cons, List.modify_succ_cons, Transition.relabel_presence]
      rw [ih]

theorem relabel_withTransitions (step : Step) (transitions : List Transition) :
    relabel word { step with transitions } =
      { step.relabel word with transitions := transitions.map (·.relabel word) } := by
  cases step
  rfl

theorem relabel_withRepeat (step : Step) (transitions : List Transition) (index : Option Nat) :
    relabel word { step with transitions, repeatIndex? := index } =
      { step.relabel word with transitions := transitions.map (·.relabel word), repeatIndex? := index } := by
  cases step
  rfl

@[simp] theorem repeatIndex?_relabel (step : Step) : (step.relabel word).repeatIndex? = step.repeatIndex? := by
  cases step
  rfl

/-- **What a transition does to a step does not depend on words**: neither on those of its condition and of the
step's conditions, nor on the limit for joined ones. -/
theorem relabel_addTransition (step : Step) (limit : Nat) (transition : Transition) :
    (step.addTransition limit transition).relabel presence =
      ((step.relabel presence).addTransition 0 (transition.relabel presence)).relabel presence := by
  have appended : ∀ (other : Step) (index : Option Nat),
      relabel presence { other with transitions := other.transitions ++ [transition], repeatIndex? := index } =
        relabel presence { other.relabel presence with
          transitions := (other.relabel presence).transitions ++ [transition.relabel presence]
          repeatIndex? := index } := by
    intro other index
    rw [relabel_withRepeat, relabel_withRepeat, relabel_presence, transitions_relabel, List.map_append,
      List.map_append, Transition.map_relabel_presence, List.map_singleton, List.map_singleton,
      Transition.relabel_presence]
  unfold addTransition
  rw [Transition.isRepeat_relabel]
  split
  · have handled : (step.relabel presence).addMigration (transition.relabel presence).migration =
        (step.addMigration transition.migration).relabel presence := (relabel_addMigration _ _ _).symm
    rw [handled]
    generalize step.addMigration transition.migration = step
    dsimp only
    rw [repeatIndex?_relabel]
    split
    · rw [transitions_relabel, List.length_map, ← transitions_relabel]
      exact appended step _
    · rw [relabel_withRepeat, relabel_withRepeat, relabel_presence, map_relabel_modify, transitions_relabel]
  · rw [repeatIndex?_relabel]
    exact appended step step.repeatIndex?

end Step

end StepChart
