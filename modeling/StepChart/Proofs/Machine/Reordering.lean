import Mathlib.Data.List.Flatten
import StepChart.Proofs.Machine.Apart
import StepChart.Proofs.Machine.Graph
import StepChart.Proofs.Machine.Unseen

/-!
# The order of registration

Where all names are distinct, nothing is discarded and nothing is marked, so a machine has the same steps in whatever
order they were given to it; the order shows in the numbers only. Propagation does not look at numbers, and so this
is still so when handlers have been spread (`registration_order`).
-/

namespace StepChart

/-! ## Machines but for numbers -/

/-- The step without its number. -/
def Step.unnumbered (step : Step) : Step := { step with number := 0 }

theorem unseen_unnumbered : Unseen Step.unnumbered id where
  name _ := rfl
  withMigrations _ _ := rfl
  withTransitions _ transitions := by
    have same : transitions.map (·.reword id) = transitions := List.map_id _
    rw [same]
    rfl

/-- What is stored of a step that no other one shares its name with, but for the number. -/
def Step.entry (step : Step) : Step := { step with subSteps := [], number := 0 }

namespace Machine

/-- The machine without the numbers of its steps. -/
def unnumbered (machine : Machine) : Machine := machine.mapSteps Step.unnumbered fun _ => rfl

theorem unnumbered_propagate (machine : Machine) : machine.propagate.unnumbered = machine.unnumbered.propagate :=
  (unseen_unnumbered.propagate machine).symm

@[simp] theorem names_unnumbered (machine : Machine) : machine.unnumbered.names = machine.names :=
  unseen_unnumbered.names machine

/-- Machines with the same steps have them in the same order. -/
theorem steps_ext {first second : Machine} (same : ∀ step, step ∈ first.steps ↔ step ∈ second.steps) :
    first.steps = second.steps := by
  have perm : first.steps.Perm second.steps :=
    (List.perm_ext_iff_of_nodup (.of_map _ first.names_nodup) (.of_map _ second.names_nodup)).2 same
  refine perm.eq_of_pairwise ?_ (List.pairwise_map.1 first.ascending) (List.pairwise_map.1 second.ascending)
  intro step other _ _ before after
  exact absurd (String.lt_trans before after) (String.lt_irrefl _)

variable {machine : Machine} {visits : List Step}

/-- If no name is visited twice, what is stored are the visited steps, none of them newly marked. -/
theorem Records.mem_unnumbered (records : machine.Records visits) (distinct : (visits.map Step.name).Nodup)
    (step : Step) : step ∈ machine.unnumbered.steps ↔ step ∈ visits.map Step.entry := by
  have split : ∀ earlier visit later, visits = earlier ++ visit :: later →
      visit.name ∉ earlier.map Step.name ∧ (visit.recorded earlier later).unnumbered = visit.entry := by
    rintro earlier visit later rfl
    rw [List.map_append, List.map_cons, List.nodup_append, List.nodup_cons] at distinct
    obtain ⟨-, ⟨notLater, -⟩, across⟩ := distinct
    refine ⟨fun seen => across _ seen _ List.mem_cons_self rfl, ?_⟩
    simp [Step.unnumbered, Step.recorded, Step.entry, notLater]
  have stored : step ∈ machine.unnumbered.steps ↔ ∃ other ∈ machine.steps, other.unnumbered = step := List.mem_map
  rw [stored, List.mem_map]
  constructor
  · rintro ⟨other, isOther, rfl⟩
    obtain ⟨earlier, visit, later, cut, -, rfl⟩ := (records.mem_steps other).1 isOther
    exact ⟨visit, cut ▸ List.mem_append_right _ List.mem_cons_self, (split earlier visit later cut).2.symm⟩
  · rintro ⟨visit, isVisit, rfl⟩
    obtain ⟨earlier, later, cut⟩ := List.append_of_mem isVisit
    obtain ⟨new, same⟩ := split earlier visit later cut
    exact ⟨_, (records.mem_steps _).2 ⟨earlier, visit, later, cut, new, rfl⟩, same⟩

theorem Records.hasInitializer_iff (records : machine.Records visits) :
    machine.hasInitializer = true ↔ ∃ step ∈ machine.unnumbered.steps, step.kind = .initializer := by
  rw [records.initializer]
  constructor
  · rintro ⟨step, isStep, initializes⟩
    exact ⟨step.unnumbered, List.mem_map_of_mem isStep, initializes⟩
  · rintro ⟨_, isStep, initializes⟩
    obtain ⟨step, isStored, rfl⟩ := List.mem_map.1 isStep
    exact ⟨step, isStored, initializes⟩

/-- The visits determine a machine but for the numbers, whatever their order, if no name is visited twice. -/
theorem Records.unnumbered_eq {first second : Machine} {others : List Step} (recordsFirst : first.Records visits)
    (recordsSecond : second.Records others) (perm : visits.Perm others) (distinct : (visits.map Step.name).Nodup)
    (made : first.blank = second.blank) : first.unnumbered = second.unnumbered := by
  have distinctOthers : (others.map Step.name).Nodup := (perm.map Step.name).nodup_iff.1 distinct
  have steps : first.unnumbered.steps = second.unnumbered.steps := by
    apply steps_ext
    intro step
    rw [recordsFirst.mem_unnumbered distinct, recordsSecond.mem_unnumbered distinctOthers]
    exact (perm.map Step.entry).mem_iff
  have initializer : first.hasInitializer = second.hasInitializer := by
    rw [Bool.eq_iff_iff, recordsFirst.hasInitializer_iff, recordsSecond.hasInitializer_iff, steps]
  exact Machine.ext (congrArg (·.receiverType) made) (congrArg (·.output) made) (congrArg (·.sequence) made)
    initializer steps

theorem blank_addGiven (machine : Machine) (given : List (Bool × Step)) :
    (machine.addGiven given).blank = machine.blank := by
  induction given generalizing machine with
  | nil => rfl
  | cons call rest ih => exact (ih (machine.add call.1 call.2)).trans (machine.blank_add call.1 call.2)

/-- **The order of registration shows in the numbers only.** Steps of which no two have the same name, those inside
them included, make the same machine in any order but for the numbers of its steps; and so they do when handlers have
been spread in it. -/
theorem registration_order (receiverType output : String) (sequence : Nat) (untyped : Bool) {steps others : List Step}
    (reordered : steps.Perm others) (distinct : ((Step.innerAll steps).map Step.name).Nodup) :
    let new : Machine := { receiverType, output, sequence }
    let first := new.addGiven (steps.map fun step => (untyped, step))
    let second := new.addGiven (others.map fun step => (untyped, step))
    first.names = second.names ∧ first.unnumbered = second.unnumbered ∧
      first.propagate.names = second.propagate.names ∧ first.propagate.unnumbered = second.propagate.unnumbered := by
  intro new first second
  have sameSteps : (wanted untyped steps).Perm (wanted untyped others) := reordered.filter _
  have visits : (Step.innerAll (wanted untyped steps)).Perm (Step.innerAll (wanted untyped others)) := by
    rw [Step.innerAll_eq_flatMap, Step.innerAll_eq_flatMap]
    exact sameSteps.flatMap_right _
  have distinctWanted : ((Step.innerAll (wanted untyped steps)).map Step.name).Nodup := by
    rw [Step.innerAll_eq_flatMap] at distinct ⊢
    exact distinct.sublist ((List.filter_sublist.flatMap _).map _)
  have undisturbed : ∀ given, (given.map Step.name).Nodup → Undisturbed (fun _ => True) [] given := by
    intro given distinct
    refine ⟨fun _ _ other => absurd trivial other, ?_, fun _ _ _ => List.not_mem_nil⟩
    exact (List.pairwise_map.1 distinct).imp fun differ _ => differ
  have recordsFirst : first.Records _ := (undisturbed _ distinctWanted).records receiverType output sequence
  have recordsSecond : second.Records _ :=
    (undisturbed _ ((visits.map _).nodup_iff.1 distinctWanted)).records receiverType output sequence
  have made : first.blank = second.blank := (blank_addGiven new _).trans (blank_addGiven new _).symm
  have registered : first.unnumbered = second.unnumbered :=
    recordsFirst.unnumbered_eq recordsSecond visits distinctWanted made
  have propagated : first.propagate.unnumbered = second.propagate.unnumbered := by
    rw [unnumbered_propagate, unnumbered_propagate, registered]
  refine ⟨?_, registered, ?_, propagated⟩
  · rw [← first.names_unnumbered, registered, names_unnumbered]
  · rw [← first.propagate.names_unnumbered, propagated, names_unnumbered]

/-- A step with a step inside it that brings a handler along, and a step that it leads to. -/
def handedOver : List Step :=
  [{ signature := { name := "start", kind := .execution }
     transitions := [{ destination := "s.work", inherits := true }]
     subSteps := [{ signature := { name := "start.1" }
                    transitions := [{ destination := "start", migration := "handler" }] }] },
   { signature := { name := "work", kind := .execution } }]

/-- The numbers differ, and the handler reaches all the steps that it has to in either order. -/
theorem registration_order_handedOver :
    let new : Machine := { receiverType := "SM", output := "out", sequence := 0 }
    let first := new.addGiven (handedOver.map fun step => (false, step))
    let second := new.addGiven (handedOver.reverse.map fun step => (false, step))
    first.propagate.unnumbered = second.propagate.unnumbered ∧
      first.propagate.steps.map (fun step => (step.number, step.migrations.toList)) =
        [(1, ["handler"]), (2, []), (3, ["handler"])] ∧
      second.propagate.steps.map (fun step => (step.number, step.migrations.toList)) =
        [(2, ["handler"]), (3, []), (1, ["handler"])] := by
  have distinct : ((Step.innerAll handedOver).map Step.name).Nodup := by decide
  obtain ⟨-, -, -, propagated⟩ :=
    registration_order "SM" "out" 0 false (List.reverse_perm handedOver).symm distinct
  refine ⟨propagated, ?_, ?_⟩
  · decide +kernel
  · decide +kernel

end Machine

end StepChart
