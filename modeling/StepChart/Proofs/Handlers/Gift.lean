import Mathlib.Data.List.Nodup
import Mathlib.Data.Set.Basic
import StepChart.Machine.Propagation

/-!
# Gifts of handlers

While handlers are spread, nothing but `Spread.give` changes a step. `give_cases` says all that one
gift can do; what the steps hold afterwards (`mem_heldIn_give`) and who is pending follow from it.
Nothing here depends on the order in which gifts are made.
-/

namespace StepChart

open Text

/-- Handler sets, one for each name of a step. -/
abbrev Family := String → Set String

/-- The handlers that the steps of a list have. -/
def heldIn (steps : List Step) : Family :=
  fun name => {handler | ∃ step ∈ steps, step.name = name ∧ handler ∈ step.migrations}

theorem mem_heldIn {steps : List Step} {name handler : String} :
    handler ∈ heldIn steps name ↔ ∃ step ∈ steps, step.name = name ∧ handler ∈ step.migrations :=
  Iff.rfl

/-- Where names are distinct, what is held under a name is what the step of that name has. -/
theorem mem_heldIn_name {steps : List Step} (distinct : (steps.map Step.name).Nodup) {step : Step}
    (member : step ∈ steps) {handler : String} : handler ∈ heldIn steps step.name ↔ handler ∈ step.migrations := by
  constructor
  · rintro ⟨other, otherMember, same, held⟩
    rwa [List.inj_on_of_nodup_map distinct otherMember member same] at held
  · exact fun held => ⟨step, member, rfl, held⟩

namespace Step

theorem lacks_iff {step : Step} {handler : String} :
    step.lacks handler = true ↔ handler ≠ "" ∧ handler ∉ step.migrations := by
  simp [lacks]

theorem mem_addMigration {step : Step} {added handler : String} :
    handler ∈ (step.addMigration added).migrations ↔ handler ∈ step.migrations ∨ handler = added ∧ handler ≠ "" := by
  unfold addMigration
  split
  · rename_i lacking
    obtain ⟨named, _⟩ := lacks_iff.1 lacking
    simp only [NameSet.mem_insert]
    constructor
    · rintro (rfl | old)
      · exact .inr ⟨rfl, named⟩
      · exact .inl old
    · rintro (old | ⟨same, _⟩)
      · exact .inr old
      · exact .inl same
  · rename_i full
    constructor
    · exact .inl
    · rintro (old | ⟨rfl, named⟩)
      · exact old
      · by_contra missing
        exact full (lacks_iff.2 ⟨named, missing⟩)

theorem mem_addMigrations {step : Step} {added : List String} {handler : String} :
    handler ∈ (step.addMigrations added).migrations ↔ handler ∈ step.migrations ∨ handler ∈ added ∧ handler ≠ "" := by
  unfold addMigrations
  induction added generalizing step with
  | nil => simp
  | cons first rest ih =>
    rw [List.foldl_cons, ih, mem_addMigration, List.mem_cons, or_and_right, or_assoc]

end Step

namespace Spread

/-- The names of the steps. -/
def names (spread : Spread) : List String := spread.steps.map Step.name

@[simp] theorem names_give (spread : Spread) (target : String) (given : List String) :
    (spread.give target given).names = spread.names :=
  Step.map_name_congr (bare_give spread target given)

@[simp] theorem names_visit (spread : Spread) (name : String) : (spread.visit name).names = spread.names :=
  Step.map_name_congr (bare_visit spread name)

@[simp] theorem names_pass (spread : Spread) (order : List String) : (spread.pass order).names = spread.names :=
  Step.map_name_congr (bare_pass order spread)

/-- The spread after the step `target` gained some of the handlers given to it. -/
def gained (spread : Spread) (target : String) (given : List String) : Spread where
  steps := spread.steps.map fun step => if step.name = target then step.addMigrations given else step
  pending := target :: spread.pending.filter (· != target)
  changed := true

/-- **All that a gift can do.** Either the step has every handler already, or there is no such step,
and nothing happens; or the step gains a handler that it did not have. -/
theorem give_cases {spread : Spread} (distinct : spread.names.Nodup) (target : String) (given : List String) :
    (spread.give target given = spread ∧
      (target ∈ spread.names → ∀ handler ∈ given, handler ≠ "" → handler ∈ heldIn spread.steps target)) ∨
    (spread.give target given = spread.gained target given ∧ target ∈ spread.names ∧
      ∃ handler ∈ given, handler ≠ "" ∧ handler ∉ heldIn spread.steps target) := by
  unfold give
  split
  · rename_i absent
    refine .inl ⟨rfl, fun present => ?_⟩
    obtain ⟨step, member, rfl⟩ := List.mem_map.1 present
    simpa using List.find?_eq_none.1 absent step member
  · rename_i step found
    obtain rfl : step.name = target := by simpa using List.find?_some found
    have member := List.mem_of_find?_eq_some found
    split
    · rename_i lacking
      obtain ⟨handler, isGiven, lacks⟩ := List.any_eq_true.1 lacking
      obtain ⟨nonempty, missing⟩ := Step.lacks_iff.1 lacks
      exact .inr ⟨rfl, List.mem_map_of_mem member, handler, isGiven, nonempty, fun held =>
        missing ((mem_heldIn_name distinct member).1 held)⟩
    · rename_i full
      refine .inl ⟨rfl, fun _ handler isGiven nonempty => (mem_heldIn_name distinct member).2 ?_⟩
      by_contra missing
      exact full (List.any_eq_true.2 ⟨handler, isGiven, Step.lacks_iff.2 ⟨nonempty, missing⟩⟩)

/-! ## What the steps hold -/

theorem mem_heldIn_gained {spread : Spread} {target name handler : String} {given : List String} :
    handler ∈ heldIn (spread.gained target given).steps name ↔ handler ∈ heldIn spread.steps name ∨
      name = target ∧ target ∈ spread.names ∧ handler ∈ given ∧ handler ≠ "" := by
  simp only [gained, mem_heldIn, List.mem_map]
  constructor
  · rintro ⟨_, ⟨step, member, rfl⟩, named, held⟩
    split at held
    · rename_i same
      rw [if_pos same, Step.name_addMigrations] at named
      rcases Step.mem_addMigrations.1 held with old | ⟨isGiven, nonempty⟩
      · exact .inl ⟨step, member, named, old⟩
      · exact .inr ⟨named.symm.trans same, List.mem_map.2 ⟨step, member, same⟩, isGiven, nonempty⟩
    · rename_i other
      rw [if_neg other] at named
      exact .inl ⟨step, member, named, held⟩
  · rintro (⟨step, member, named, old⟩ | ⟨rfl, present, isGiven, nonempty⟩)
    · refine ⟨_, ⟨step, member, rfl⟩, ?_⟩
      split
      · exact ⟨by simpa using named, Step.mem_addMigrations.2 (.inl old)⟩
      · exact ⟨named, old⟩
    · obtain ⟨step, member, rfl⟩ := List.mem_map.1 present
      refine ⟨_, ⟨step, member, rfl⟩, ?_⟩
      rw [if_pos rfl]
      exact ⟨Step.name_addMigrations _ _, Step.mem_addMigrations.2 (.inr ⟨isGiven, nonempty⟩)⟩

theorem mem_heldIn_give {spread : Spread} (distinct : spread.names.Nodup) {target name handler : String}
    {given : List String} :
    handler ∈ heldIn (spread.give target given).steps name ↔ handler ∈ heldIn spread.steps name ∨
      name = target ∧ target ∈ spread.names ∧ handler ∈ given ∧ handler ≠ "" := by
  rcases give_cases distinct target given with ⟨same, full⟩ | ⟨gain, _⟩
  · rw [same]
    refine ⟨.inl, ?_⟩
    rintro (old | ⟨rfl, present, isGiven, nonempty⟩)
    · exact old
    · exact full present handler isGiven nonempty
  · rw [gain, mem_heldIn_gained]

theorem heldIn_subset_give {spread : Spread} (distinct : spread.names.Nodup) (target name : String)
    (given : List String) : heldIn spread.steps name ⊆ heldIn (spread.give target given).steps name :=
  fun _ old => (mem_heldIn_give distinct).2 (.inl old)

/-! ## Who is pending -/

/-- A step that is not pending after a gift was not pending before it and has gained nothing. -/
theorem not_pending_give {spread : Spread} (distinct : spread.names.Nodup) {target name : String}
    {given : List String} (settled : name ∉ (spread.give target given).pending) :
    name ∉ spread.pending ∧ heldIn (spread.give target given).steps name = heldIn spread.steps name := by
  rcases give_cases distinct target given with ⟨same, _⟩ | ⟨gain, _⟩
  · rw [same] at settled ⊢
    exact ⟨settled, rfl⟩
  · rw [gain] at settled ⊢
    simp only [gained, List.mem_cons, List.mem_filter, bne_iff_ne, not_or, not_and] at settled
    refine ⟨fun pending => settled.2 pending settled.1, Set.ext fun handler => ?_⟩
    rw [mem_heldIn_gained]
    simp [settled.1]

/-- A step that is pending after a gift was pending before it or is the one that has gained. -/
theorem pending_give {spread : Spread} (distinct : spread.names.Nodup) {target name : String}
    {given : List String} (pending : name ∈ (spread.give target given).pending) :
    name ∈ spread.pending ∨ name = target ∧ target ∈ spread.names ∧
      ∃ handler ∈ given, handler ≠ "" ∧ handler ∉ heldIn spread.steps target := by
  rcases give_cases distinct target given with ⟨same, _⟩ | ⟨gain, present, fresh⟩
  · rw [same] at pending
    exact .inl pending
  · rw [gain] at pending
    simp only [gained, List.mem_cons, List.mem_filter] at pending
    rcases pending with rfl | ⟨old, _⟩
    · exact .inr ⟨rfl, present, fresh⟩
    · exact .inl old

end Spread

end StepChart
