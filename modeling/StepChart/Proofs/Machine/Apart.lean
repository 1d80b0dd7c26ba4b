import StepChart.Proofs.Machine.Visits

/-!
# Steps that are not discarded

A visited step is discarded, together with the steps inside it, if its name was visited before. Where the names of
all steps that have steps inside are their own, nothing but single steps can be discarded, so the visits are the
steps and all steps inside them (`Undisturbed.visitsOf_eq`).
-/

namespace StepChart

open Machine (Apart)

/-- Of the steps, visited in this order after the names in `seen`, those that are to have names of their own do, and
the others have no steps inside them. -/
structure Undisturbed (own : Step → Prop) (seen : List String) (steps : List Step) : Prop where
  leaf : ∀ step ∈ steps, ¬ own step → step.subSteps = []
  apart : steps.Pairwise (Apart own)
  fresh : ∀ step ∈ steps, own step → step.name ∉ seen

namespace Undisturbed

variable {own : Step → Prop} {seen : List String}

theorem append (before : List Step) {after : List Step} (undisturbed : Undisturbed own seen (before ++ after)) :
    Undisturbed own seen before ∧ Undisturbed own (seen ++ before.map Step.name) after := by
  obtain ⟨leaf, apart, fresh⟩ := undisturbed
  obtain ⟨apartBefore, apartAfter, across⟩ := List.pairwise_append.1 apart
  constructor
  · exact ⟨fun step member => leaf step (List.mem_append_left _ member), apartBefore,
      fun step member => fresh step (List.mem_append_left _ member)⟩
  · refine ⟨fun step member => leaf step (List.mem_append_right _ member), apartAfter, fun step member isOwn => ?_⟩
    rw [List.mem_append, not_or]
    refine ⟨fresh step (List.mem_append_right _ member) isOwn, fun visited => ?_⟩
    obtain ⟨other, isOther, same⟩ := List.mem_map.1 visited
    exact across other isOther step member (.inr isOwn) same

/-- A step with a name of its own is the only one of its name. -/
theorem count_name {steps : List Step} (undisturbed : Undisturbed own seen steps) {step : Step} (member : step ∈ steps)
    (isOwn : own step) : (steps.map Step.name).count step.name = 1 := by
  obtain ⟨before, after, rfl⟩ := List.append_of_mem member
  obtain ⟨-, apartRest, across⟩ := List.pairwise_append.1 undisturbed.apart
  obtain ⟨ahead, -⟩ := List.pairwise_cons.1 apartRest
  have notBefore : step.name ∉ before.map Step.name := by
    intro seen
    obtain ⟨other, isOther, same⟩ := List.mem_map.1 seen
    exact across other isOther step List.mem_cons_self (.inr isOwn) same
  have notAfter : step.name ∉ after.map Step.name := by
    intro again
    obtain ⟨other, isOther, same⟩ := List.mem_map.1 again
    exact ahead other isOther (.inl isOwn) same.symm
  rw [List.map_append, List.map_cons, List.count_append, List.count_cons_self, List.count_eq_zero.2 notBefore,
    List.count_eq_zero.2 notAfter]

mutual

theorem visits_eq : (step : Step) → {seen : List String} → Undisturbed own seen (step :: step.inner) →
    step.visits seen = step :: step.inner
  | ⟨signature, transitions, repeatIndex, subSteps, usages, migrations, number, duplicate, isSubroutine⟩, seen,
    undisturbed => by
    have onward : Undisturbed own (seen ++ [signature.name]) (Step.innerAll subSteps) := (undisturbed.append [_]).2
    rw [Step.visits, Step.inner]
    split
    · next visited =>
      -- The step has no name of its own, and so nothing inside it.
      have notOwn := mt (undisturbed.fresh _ List.mem_cons_self) (not_not.2 visited)
      have nothing : subSteps = [] := undisturbed.leaf _ List.mem_cons_self notOwn
      rw [nothing, Step.innerAll]
    · rw [visitsIn_eq subSteps onward]

theorem visitsIn_eq : (steps : List Step) → {seen : List String} → Undisturbed own seen (Step.innerAll steps) →
    Step.visitsIn seen steps = Step.innerAll steps
  | [], _, _ => by rw [Step.visitsIn, Step.innerAll]
  | step :: rest, seen, undisturbed => by
    rw [Step.innerAll, ← List.cons_append] at undisturbed ⊢
    obtain ⟨first, onward⟩ := undisturbed.append (step :: step.inner)
    rw [Step.visitsIn, visits_eq step first, visitsIn_eq rest onward]

end

end Undisturbed

/-! ## Steps that are given to a machine -/

/-- The steps that are not left out: all if plain ones are asked for. -/
def wanted (untyped : Bool) (steps : List Step) : List Step :=
  steps.filter fun step => untyped || step.kind ≠ .plain

theorem Undisturbed.visitsOf_eq {own : Step → Prop} {untyped : Bool} {steps : List Step} {seen : List String}
    (undisturbed : Undisturbed own seen (Step.innerAll (wanted untyped steps))) :
    visitsOf seen (steps.map fun step => (untyped, step)) = Step.innerAll (wanted untyped steps) := by
  induction steps generalizing seen with
  | nil => rfl
  | cons step rest ih =>
    rw [List.map_cons, visitsOf]
    split
    · next left =>
      have out : wanted untyped (step :: rest) = wanted untyped rest := by simp [wanted, left.1, left.2]
      rw [out] at undisturbed ⊢
      exact ih undisturbed
    · next kept =>
      have typed : untyped = true ∨ step.kind ≠ .plain := by
        simpa using Classical.not_and_iff_not_or_not.1 kept
      have stays : wanted untyped (step :: rest) = step :: wanted untyped rest :=
        List.filter_cons_of_pos (by simpa using typed)
      rw [stays, Step.innerAll, ← List.cons_append] at undisturbed ⊢
      obtain ⟨first, onward⟩ := undisturbed.append (step :: step.inner)
      rw [Undisturbed.visits_eq step first, ih onward]

/-- A step that came unmarked is marked if its name is visited twice. -/
theorem RecordedIn.duplicate_iff {visits : List Step} {stored : Step} (recorded : RecordedIn visits stored)
    (unmarked : ∀ visit ∈ visits, visit.duplicate = false) :
    stored.duplicate = true ↔ 2 ≤ (visits.map Step.name).count stored.name := by
  obtain ⟨earlier, step, later, rfl, new, rfl⟩ := recorded
  have came : step.duplicate = false := unmarked step (List.mem_append_right _ List.mem_cons_self)
  have marked : (step.recorded earlier later).duplicate = true ↔ step.name ∈ later.map Step.name := by
    simp [Step.recorded, came]
  have name : (step.recorded earlier later).name = step.name := rfl
  rw [marked, name, List.map_append, List.map_cons, List.count_append, List.count_cons_self,
    List.count_eq_zero.2 new, ← List.one_le_count_iff]
  omega

theorem Machine.register_eq_addGiven (machine : Machine) (steps : List Step) :
    machine.register steps = machine.addGiven (steps.map fun step => (false, step)) := by
  unfold register addGiven
  rw [List.foldl_map]

/-- **Nothing but single steps is discarded**: the machine holds the first of each name among the steps that it was
given and the steps inside them. -/
theorem Undisturbed.records {own : Step → Prop} {untyped : Bool} {steps : List Step}
    (undisturbed : Undisturbed own [] (Step.innerAll (wanted untyped steps))) (receiverType output : String)
    (sequence : Nat) :
    (({ receiverType, output, sequence } : Machine).addGiven (steps.map fun step => (untyped, step))).Records
      (Step.innerAll (wanted untyped steps)) := by
  rw [← undisturbed.visitsOf_eq]
  exact (Machine.records_nil receiverType output sequence).addGiven _

end StepChart
