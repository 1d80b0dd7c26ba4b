import Mathlib.Data.List.Dedup
import StepChart.Proofs.Machine.Stored

/-!
# Registration as a sequence of visits

Registering steps visits each of them and then the steps inside it. A step whose name was visited before is
discarded together with the steps inside it, and so is a plain step that is not asked for. `visitsOf` lists
the visits; it knows nothing of machines, numbers and marks. The machine is determined by that list: it holds
the first visit of each name, numbered in the order of the visits, and marked if a later visit has its name
(`first_visits_registered`).
-/

namespace StepChart

/-! ## Visits -/

namespace Step

mutual

/-- The visits of a step after the names in `seen`: the step itself, and the steps inside it unless it is
discarded. -/
def visits (seen : List String) : Step → List Step
  | ⟨signature, transitions, repeatIndex, subSteps, usages, migrations, number, duplicate, isSubroutine⟩ =>
    ⟨signature, transitions, repeatIndex, subSteps, usages, migrations, number, duplicate, isSubroutine⟩ ::
      if signature.name ∈ seen then [] else visitsIn (seen ++ [signature.name]) subSteps

/-- The visits of steps, one after the other. -/
def visitsIn (seen : List String) : List Step → List Step
  | [] => []
  | step :: rest => step.visits seen ++ visitsIn (seen ++ (step.visits seen).map name) rest

end

/-- What is stored of a step visited after the visits `earlier` and before the visits `later`: its number
counts the names visited so far. -/
def recorded (earlier : List Step) (step : Step) (later : List Step) : Step :=
  { step with
    subSteps := []
    number := (earlier.map name).dedup.length + 1
    duplicate := step.duplicate || decide (step.name ∈ later.map name) }

end Step

theorem Step.visits_eq (seen : List String) (step : Step) :
    step.visits seen = step :: if step.name ∈ seen then [] else visitsIn (seen ++ [step.name]) step.subSteps := by
  cases step
  rfl

/-- The visits of steps that are given to a machine, each with the word whether a plain one is asked for. -/
def visitsOf (seen : List String) : List (Bool × Step) → List Step
  | [] => []
  | (untyped, step) :: rest =>
    if untyped = false ∧ step.kind = .plain then visitsOf seen rest
    else step.visits seen ++ visitsOf (seen ++ (step.visits seen).map Step.name) rest

/-- A step stands for the first visit of its name. -/
def RecordedIn (visits : List Step) (stored : Step) : Prop :=
  ∃ earlier step later, visits = earlier ++ step :: later ∧ step.name ∉ earlier.map Step.name ∧
    stored = step.recorded earlier later

theorem recordedIn_nil (stored : Step) : ¬ RecordedIn [] stored := by
  rintro ⟨earlier, step, later, split, -⟩
  exact List.append_ne_nil_of_right_ne_nil _ (List.cons_ne_nil _ _) split.symm

/-- After one more visit, the first visits are those before it, and that visit if its name is new. -/
theorem recordedIn_concat {visits : List Step} {visit stored : Step} :
    RecordedIn (visits ++ [visit]) stored ↔
      (∃ earlier step later, visits = earlier ++ step :: later ∧ step.name ∉ earlier.map Step.name ∧
        stored = step.recorded earlier (later ++ [visit])) ∨
      visit.name ∉ visits.map Step.name ∧ stored = visit.recorded visits [] := by
  constructor
  · rintro ⟨earlier, step, later, split, first, rfl⟩
    rcases List.eq_nil_or_concat later with rfl | ⟨before, last, rfl⟩
    · obtain ⟨rfl, same⟩ := List.append_inj' split rfl
      rw [List.singleton_inj.1 same]
      exact .inr ⟨first, rfl⟩
    · rw [List.concat_eq_append, ← List.cons_append, ← List.append_assoc] at split
      obtain ⟨rfl, same⟩ := List.append_inj' split rfl
      rw [List.concat_eq_append, List.singleton_inj.1 same]
      exact .inl ⟨earlier, step, before, rfl, first, rfl⟩
  · rintro (⟨earlier, step, later, rfl, first, rfl⟩ | ⟨new, rfl⟩)
    · exact ⟨earlier, step, later ++ [visit], by simp, first, rfl⟩
    · exact ⟨visits, visit, [], rfl, new, rfl⟩

/-- Whatever is visited later, what stands for a first visit keeps standing for it; only its mark may change. -/
theorem RecordedIn.append {visits : List Step} {stored : Step} (recorded : RecordedIn visits stored)
    (more : List Step) : ∃ mark, RecordedIn (visits ++ more) { stored with duplicate := mark } := by
  obtain ⟨earlier, step, later, rfl, first, rfl⟩ := recorded
  exact ⟨_, earlier, step, later ++ more, by simp, first, rfl⟩

/-- One more visit marks what is stored of a step of its name, and changes nothing else. -/
theorem Step.recorded_concat (earlier : List Step) (step : Step) (later : List Step) (visit : Step) :
    step.recorded earlier (later ++ [visit]) =
      if step.name = visit.name then { step.recorded earlier later with duplicate := true }
      else step.recorded earlier later := by
  split
  · next same => simp [recorded, same]
  · next differs => simp [recorded, differs]

/-- A visited name has a first visit. -/
theorem exists_recordedIn {visits : List Step} {name : String} :
    (∃ stored, RecordedIn visits stored ∧ stored.name = name) ↔ name ∈ visits.map Step.name := by
  constructor
  · rintro ⟨_, ⟨earlier, step, later, rfl, -, rfl⟩, rfl⟩
    exact List.mem_map.2 ⟨step, List.mem_append_right _ List.mem_cons_self, rfl⟩
  · intro member
    obtain ⟨before, after, split, first⟩ := List.eq_append_cons_of_mem member
    obtain ⟨earlier, rest, rfl, rfl, isRest⟩ := List.map_eq_append_iff.1 split
    obtain ⟨step, later, rfl, rfl, rfl⟩ := List.map_eq_cons_iff.1 isRest
    exact ⟨_, ⟨earlier, step, later, rfl, first, rfl⟩, rfl⟩

theorem length_dedup_concat (names : List String) (name : String) :
    (names ++ [name]).dedup.length = if name ∈ names then names.dedup.length else names.dedup.length + 1 := by
  rw [(List.perm_append_singleton name names).dedup.length_eq]
  split
  · next seen => rw [List.dedup_cons_of_mem seen]
  · next new => rw [List.dedup_cons_of_notMem new, List.length_cons]

/-! ## One visit -/

namespace Machine

variable {machine : Machine} {visits : List Step} {visit : Step}

/-- **The machine holds the first visit of each name**, and nothing else. -/
structure Records (machine : Machine) (visits : List Step) : Prop where
  mem_steps : ∀ stored, stored ∈ machine.steps ↔ RecordedIn visits stored
  size_eq : machine.size = (visits.map Step.name).dedup.length
  /-- Each number up to the number of steps is given once. -/
  numbers : (machine.steps.map Step.number).Perm (List.range' 1 machine.size)
  initializer : machine.hasInitializer = true ↔ ∃ stored ∈ machine.steps, stored.kind = .initializer

theorem Records.mem_names (records : machine.Records visits) {name : String} :
    name ∈ machine.names ↔ name ∈ visits.map Step.name := by
  rw [← exists_recordedIn, names, List.mem_map]
  simp only [records.mem_steps]

theorem insertStep_perm {step : Step} {steps : List Step} (fresh : step.name ∉ steps.map Step.name) :
    (insertStep step steps).Perm (step :: steps) := by
  induction steps with
  | nil => rfl
  | cons first rest ih =>
    rw [List.map_cons, List.mem_cons, not_or] at fresh
    unfold insertStep
    split
    · rfl
    · rw [if_neg fresh.1]
      exact ((ih fresh.2).cons first).trans (List.Perm.swap step first rest)

/-- Visiting a name again marks the step that stands for it. -/
theorem Records.markDuplicate (records : machine.Records visits) (seen : visit.name ∈ visits.map Step.name) :
    (machine.markDuplicate visit.name).Records (visits ++ [visit]) where
  mem_steps stored := by
    have marked : stored ∈ (machine.markDuplicate visit.name).steps ↔ ∃ step ∈ machine.steps,
        (if step.name = visit.name then { step with duplicate := true } else step) = stored := List.mem_map
    rw [marked, recordedIn_concat]
    constructor
    · rintro ⟨step, isStored, rfl⟩
      obtain ⟨earlier, first, later, split, new, rfl⟩ := (records.mem_steps step).1 isStored
      exact .inl ⟨earlier, first, later, split, new, (first.recorded_concat earlier later visit).symm⟩
    · rintro (⟨earlier, first, later, split, new, rfl⟩ | ⟨new, -⟩)
      · exact ⟨_, (records.mem_steps _).2 ⟨earlier, first, later, split, new, rfl⟩,
          (first.recorded_concat earlier later visit).symm⟩
      · exact absurd seen new
  size_eq := by
    rw [List.map_append, List.map_singleton, length_dedup_concat, if_pos seen, ← records.size_eq]
    exact List.length_map _
  numbers := by
    have size : (machine.markDuplicate visit.name).size = machine.size := List.length_map _
    rw [map_markDuplicate fun _ _ => rfl, size]
    exact records.numbers
  initializer := by
    have kinds : (machine.markDuplicate visit.name).steps.map Step.kind = machine.steps.map Step.kind :=
      map_markDuplicate (fun _ _ => rfl) visit.name
    rw [← List.mem_map, kinds, List.mem_map]
    exact records.initializer

/-- Visiting a new name stores the step under the next number. -/
theorem Records.store (records : machine.Records visits) (new : visit.name ∉ visits.map Step.name) :
    (machine.store { visit with subSteps := [] }).Records (visits ++ [visit]) := by
  have fresh : visit.name ∉ machine.steps.map Step.name := mt records.mem_names.1 new
  have stored : { visit with subSteps := [], number := machine.size + 1 } = visit.recorded visits [] := by
    simp [Step.recorded, records.size_eq]
  have perm : (machine.store { visit with subSteps := [] }).steps.Perm (visit.recorded visits [] :: machine.steps) := by
    rw [← stored]
    exact insertStep_perm fresh
  have size : (machine.store { visit with subSteps := [] }).size = machine.size + 1 := perm.length_eq
  have unmarked : ∀ earlier step later, visits = earlier ++ step :: later →
      step.recorded earlier (later ++ [visit]) = step.recorded earlier later := by
    rintro earlier step later rfl
    rw [Step.recorded_concat, if_neg]
    intro same
    exact new (List.mem_map.2 ⟨step, List.mem_append_right _ List.mem_cons_self, same⟩)
  constructor
  · intro other
    rw [perm.mem_iff, List.mem_cons, records.mem_steps, recordedIn_concat, or_comm]
    refine or_congr ?_ (and_iff_right new).symm
    refine exists_congr fun earlier => exists_congr fun step => exists_congr fun later => ?_
    refine and_congr_right fun split => ?_
    rw [unmarked earlier step later split]
  · rw [size, List.map_append, List.map_singleton, length_dedup_concat, if_neg new, records.size_eq]
  · have next : (visit.recorded visits []).number = 1 + 1 * machine.size := by
      rw [records.size_eq, Nat.one_mul, Nat.add_comm]
      rfl
    rw [size, List.range'_concat, ← next]
    exact (perm.map Step.number).trans ((records.numbers.cons _).trans (List.perm_append_singleton _ _).symm)
  · have kind : (machine.store { visit with subSteps := [] }).hasInitializer =
        (machine.hasInitializer || visit.kind == .initializer) := rfl
    rw [kind, Bool.or_eq_true, records.initializer, beq_iff_eq, or_comm]
    simp only [perm.mem_iff, List.mem_cons, or_and_right, exists_or, exists_eq_left]
    rfl

/-! ## All visits -/

mutual

/-- Registering a step makes its visits. -/
theorem Records.add : (step : Step) → (untyped : Bool) → ¬ (untyped = false ∧ step.kind = .plain) →
    (machine : Machine) → (visits : List Step) → machine.Records visits →
    (machine.add untyped step).Records (visits ++ step.visits (visits.map Step.name))
  | ⟨_, _, _, subSteps, _, _, _, _, _⟩, untyped, wanted, machine, visits, records => by
    rw [add_eq, if_neg wanted, Step.visits_eq]
    simp only [records.mem_names]
    split
    · next seen => exact records.markDuplicate seen
    · next new =>
      have inside := Records.addAll subSteps _ _ (records.store new)
      rw [List.map_append, List.append_assoc] at inside
      exact inside

theorem Records.addAll : (steps : List Step) → (machine : Machine) → (visits : List Step) → machine.Records visits →
    (machine.addAll steps).Records (visits ++ Step.visitsIn (visits.map Step.name) steps)
  | [], machine, visits, records => by
    rw [Machine.addAll, Step.visitsIn, List.append_nil]
    exact records
  | step :: rest, machine, visits, records => by
    have first := Records.add step true (fun left => Bool.noConfusion left.1) machine visits records
    have onward := Records.addAll rest _ _ first
    rw [List.map_append, List.append_assoc] at onward
    rw [Machine.addAll, Step.visitsIn]
    exact onward

end

/-- Gives steps to a machine one after the other, each with the word whether a plain one is asked for. -/
def addGiven (machine : Machine) (given : List (Bool × Step)) : Machine :=
  given.foldl (fun machine call => machine.add call.1 call.2) machine

theorem Records.addGiven (records : machine.Records visits) (given : List (Bool × Step)) :
    (machine.addGiven given).Records (visits ++ visitsOf (visits.map Step.name) given) := by
  induction given generalizing machine visits with
  | nil =>
    rw [visitsOf, List.append_nil]
    exact records
  | cons call rest ih =>
    obtain ⟨untyped, step⟩ := call
    have onward : machine.addGiven ((untyped, step) :: rest) = (machine.add untyped step).addGiven rest := rfl
    rw [onward, visitsOf]
    split
    · next left =>
      rw [add_eq, if_pos left]
      exact ih records
    · next wanted =>
      have after := ih (Records.add step untyped wanted machine visits records)
      rw [List.map_append, List.append_assoc] at after
      exact after

theorem records_nil (receiverType output : String) (sequence : Nat) :
    ({ receiverType, output, sequence } : Machine).Records [] where
  mem_steps stored := iff_of_false List.not_mem_nil (recordedIn_nil stored)
  size_eq := rfl
  numbers := .refl _
  initializer := iff_of_false Bool.false_ne_true fun ⟨_, member, _⟩ => List.not_mem_nil member

/-- **Registration stores the first visit of each name.** A stored step is the visited one but for its inner
steps, its number and its mark, and is found under its name. The numbers count the names in the order of their
first visits, and are not changed by whatever is registered later. A step is marked if a later visit has its
name, or if it was marked when it came. The machine has an initializer if and only if one is stored. -/
theorem first_visits_registered (receiverType output : String) (sequence : Nat) (given : List (Bool × Step)) :
    let machine := ({ receiverType, output, sequence } : Machine).addGiven given
    (∀ stored, stored ∈ machine.steps ↔ RecordedIn (visitsOf [] given) stored) ∧
    (∀ name stored, machine.step? name = some stored ↔ stored ∈ machine.steps ∧ stored.name = name) ∧
    (machine.steps.map Step.number).Perm (List.range' 1 machine.size) ∧
    (∀ more, ∀ stored ∈ machine.steps, ∃ mark, { stored with duplicate := mark } ∈ (machine.addGiven more).steps) ∧
    (machine.hasInitializer = true ↔ ∃ stored ∈ machine.steps, stored.kind = .initializer) := by
  intro machine
  have records : machine.Records (visitsOf [] given) := (records_nil receiverType output sequence).addGiven given
  refine ⟨records.mem_steps, fun _ _ => step?_eq_some_iff, records.numbers, ?_, records.initializer⟩
  intro more stored isStored
  obtain ⟨mark, recorded⟩ := ((records.mem_steps stored).1 isStored).append (visitsOf _ more)
  exact ⟨mark, ((records.addGiven more).mem_steps _).2 recorded⟩

/-- A step inside a step may have the name of the step around it: it is visited, and discarded with what is
inside it. -/
example :
    let named (name : String) (subSteps : List Step) : Step := { signature := { name, kind := .execution }, subSteps }
    let outer := named "Outer" [named "Inner" [named "Outer" [named "Lost" []]], named "Last" []]
    (visitsOf [] [(false, outer)]).map Step.name = ["Outer", "Inner", "Outer", "Last"] ∧
    ((default : Machine).addGiven [(false, outer)]).steps.map (fun step => (step.name, step.number, step.duplicate)) =
      [("Inner", 2, false), ("Last", 3, false), ("Outer", 1, true)] := by
  decide

end Machine

end StepChart
