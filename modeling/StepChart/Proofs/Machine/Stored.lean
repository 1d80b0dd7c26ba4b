import StepChart.Proofs.Machine.Names
import StepChart.Proofs.Machine.Registration

/-!
# What registration stores

A step is stored under its name if the name is not taken when its turn comes, and is then kept whatever is
registered later; only its duplicate mark can change. `register_keeps` says so for the steps inside declared
steps: those whose names no other step has are all stored.
-/

namespace StepChart

/-- What a machine keeps of a step: all but its inner steps, its number and its duplicate mark. -/
def Step.core (step : Step) : Step := { step with subSteps := [], number := 0, duplicate := false }

namespace Machine

variable {machine : Machine} {step other : Step}

/-- The machine has stored this step. -/
def Keeps (machine : Machine) (step : Step) : Prop := ∃ stored ∈ machine.steps, stored.core = step.core

/-! ## Names -/

/-- What does not show the mark is the same after marking. -/
theorem map_markDuplicate {β : Type} {view : Step → β}
    (blind : ∀ (step : Step) (mark : Bool), view { step with duplicate := mark } = view step) (name : String) :
    (machine.markDuplicate name).steps.map view = machine.steps.map view := by
  unfold markDuplicate withSteps
  rw [List.map_map]
  refine List.map_congr_left fun step _ => ?_
  simp only [Function.comp_apply]
  split
  · exact blind step true
  · rfl

theorem names_markDuplicate (machine : Machine) (name : String) :
    (machine.markDuplicate name).names = machine.names :=
  map_markDuplicate (fun _ _ => rfl) name

theorem mem_names_store {name : String} : name ∈ (machine.store step).names ↔ name = step.name ∨ name ∈ machine.names := by
  unfold store names
  rw [map_name_insertStep, Text.mem_insertName]
  rfl

/-- Registration brings in no other names than those of the step and of the steps inside it. -/
theorem mem_names_add {untyped : Bool} {name : String} (member : name ∈ (machine.add untyped step).names) :
    name ∈ machine.names ∨ ∃ other ∈ step :: step.inner, other.name = name := by
  let good (after : Machine) : Prop :=
    ∀ name ∈ after.names, name ∈ machine.names ∨ ∃ other ∈ step :: step.inner, other.name = name
  have grown : good (machine.add untyped step) := by
    refine add_induction (fun after marked old => ?_) (fun after new isNew _ old => ?_) untyped step
      (Step.everywhere_of step fun other within => within) machine fun name old => .inl old
    · intro name member
      rw [names_markDuplicate] at member
      exact old name member
    · intro name member
      rcases mem_names_store.1 member with rfl | before
      · exact .inr ⟨new, isNew, rfl⟩
      · exact old name before
  exact grown name member

/-! ## Stored steps -/

theorem mem_insertStep_of_mem {steps : List Step} (member : other ∈ steps) : other ∈ insertStep step steps := by
  induction steps with
  | nil => cases member
  | cons first rest ih =>
    unfold insertStep
    split
    · exact List.mem_cons_of_mem _ member
    · split
      · exact member
      · rcases List.mem_cons.1 member with rfl | later
        · exact List.mem_cons_self
        · exact List.mem_cons_of_mem _ (ih later)

theorem mem_insertStep_self {steps : List Step} (fresh : step.name ∉ steps.map Step.name) :
    step ∈ insertStep step steps := by
  induction steps with
  | nil => exact List.mem_singleton.2 rfl
  | cons first rest ih =>
    rw [List.map_cons, List.mem_cons, not_or] at fresh
    unfold insertStep
    split
    · exact List.mem_cons_self
    · rw [if_neg fresh.1]
      exact List.mem_cons_of_mem _ (ih fresh.2)

theorem Keeps.markDuplicate (keeps : machine.Keeps step) (name : String) : (machine.markDuplicate name).Keeps step := by
  obtain ⟨stored, isStored, same⟩ := keeps
  refine ⟨_, List.mem_map_of_mem isStored, ?_⟩
  rw [← same]
  split <;> rfl

theorem Keeps.store (keeps : machine.Keeps step) (new : Step) : (machine.store new).Keeps step := by
  obtain ⟨stored, isStored, same⟩ := keeps
  exact ⟨stored, mem_insertStep_of_mem isStored, same⟩

theorem keeps_store (fresh : step.name ∉ machine.names) : (machine.store { step with subSteps := [] }).Keeps step :=
  ⟨_, mem_insertStep_self fresh, rfl⟩

/-- A stored step is kept. -/
theorem Keeps.add (keeps : machine.Keeps step) (untyped : Bool) (new : Step) : (machine.add untyped new).Keeps step := by
  have mark : ∀ (machine : Machine) (name : String), machine.Keeps step → (machine.markDuplicate name).Keeps step :=
    fun _ name kept => kept.markDuplicate name
  have every : new.Everywhere fun _ => True := Step.everywhere_of new fun _ _ => trivial
  exact add_induction mark (fun _ _ _ _ kept => kept.store _) untyped new every machine keeps

theorem Keeps.addAll (keeps : machine.Keeps step) (new : List Step) : (machine.addAll new).Keeps step := by
  induction new generalizing machine with
  | nil => rwa [Machine.addAll]
  | cons first rest ih =>
    rw [Machine.addAll]
    exact ih (keeps.add true first)

/-- What happens to a step: it is left out, it marks the step of its name, or it is stored before the steps
inside it. -/
theorem add_eq (machine : Machine) (untyped : Bool) (step : Step) :
    machine.add untyped step =
      if untyped = false ∧ step.kind = .plain then machine
      else if step.name ∈ machine.names then machine.markDuplicate step.name
      else (machine.store { step with subSteps := [] }).addAll step.subSteps := by
  obtain ⟨signature, transitions, repeatIndex, subSteps, usages, migrations, number, duplicate, isSubroutine⟩ := step
  rw [add]
  simp only [has_iff, Bool.and_eq_true, Bool.not_eq_true', beq_iff_eq]
  rfl

/-- A step that is not left out, and whose name is not taken, is stored before the steps inside it. -/
theorem add_of_fresh {untyped : Bool} (wanted : untyped = true ∨ step.kind ≠ .plain) (fresh : step.name ∉ machine.names) :
    machine.add untyped step = (machine.store { step with subSteps := [] }).addAll step.subSteps := by
  rw [add_eq, if_neg, if_neg fresh]
  rintro ⟨rfl, plain⟩
  exact wanted.elim Bool.false_ne_true (absurd plain)

/-! ## Steps with names of their own -/

/-- Of two steps, one of which has a name of its own, the names differ. -/
abbrev Apart (own : Step → Prop) (first second : Step) : Prop := own first ∨ own second → first.name ≠ second.name

/-- Among the steps inside a step, those that are to have names of their own do, and the others have no
steps inside them. -/
structure Separate (own : Step → Prop) (step : Step) : Prop where
  leaf : ∀ other ∈ step.inner, ¬ own other → other.subSteps = []
  differs : ∀ other ∈ step.inner, own other → step.name ≠ other.name
  apart : step.inner.Pairwise (Apart own)

section Own

variable {own : Step → Prop}

mutual

/-- Steps with names of their own are stored with the step that they are inside of. -/
theorem add_keeps : (step : Step) → (machine : Machine) → (untyped : Bool) → (untyped = true ∨ step.kind ≠ .plain) →
    step.name ∉ machine.names → Separate own step → (∀ other ∈ step.inner, own other → other.name ∉ machine.names) →
    (machine.add untyped step).Keeps step ∧ ∀ other ∈ step.inner, own other → (machine.add untyped step).Keeps other
  | ⟨_, _, _, subSteps, _, _, _, _, _⟩, machine, untyped, wanted, unused, separate, fresh => by
    rw [add_of_fresh wanted unused]
    refine ⟨(keeps_store unused).addAll _, ?_⟩
    refine addAll_keeps subSteps _ separate.leaf separate.apart fun other within isOwn taken => ?_
    rcases mem_names_store.1 taken with same | old
    · exact separate.differs other within isOwn same.symm
    · exact fresh other within isOwn old

theorem addAll_keeps : (steps : List Step) → (machine : Machine) →
    (∀ other ∈ Step.innerAll steps, ¬ own other → other.subSteps = []) → (Step.innerAll steps).Pairwise (Apart own) →
    (∀ other ∈ Step.innerAll steps, own other → other.name ∉ machine.names) →
    ∀ other ∈ Step.innerAll steps, own other → (machine.addAll steps).Keeps other
  | [], _, _, _, _, _, member => absurd member List.not_mem_nil
  | first :: rest, machine, leaf, apart, fresh, other, member => by
    intro isOwn
    rw [addAll]
    rw [Step.innerAll, ← List.cons_append] at leaf apart fresh member
    obtain ⟨apartFirst, apartRest, across⟩ := List.pairwise_append.1 apart
    have firstIn : first ∈ (first :: first.inner) ++ Step.innerAll rest := List.mem_append_left _ List.mem_cons_self
    rcases List.mem_append.1 member with inFirst | inRest
    · refine Keeps.addAll ?_ rest
      by_cases ownFirst : own first
      · obtain ⟨differs, apartInside⟩ := List.pairwise_cons.1 apartFirst
        have separate : Separate own first :=
          ⟨fun step within => leaf step (List.mem_append_left _ (List.mem_cons_of_mem _ within)),
            fun step within ownStep => differs step within (.inr ownStep), apartInside⟩
        obtain ⟨stored, inside⟩ := add_keeps first machine true (.inl rfl) (fresh first firstIn ownFirst) separate
          fun step within => fresh step (List.mem_append_left _ (List.mem_cons_of_mem _ within))
        rcases List.mem_cons.1 inFirst with isFirst | within
        · rw [isFirst]
          exact stored
        · exact inside other within isOwn
      · have none := leaf first firstIn ownFirst
        rw [Step.inner_eq, none] at inFirst
        rw [List.mem_singleton.1 inFirst] at isOwn
        exact absurd isOwn ownFirst
    · refine addAll_keeps rest _ (fun step within => leaf step (List.mem_append_right _ within)) apartRest
        (fun step within ownStep taken => ?_) other inRest isOwn
      rcases mem_names_add taken with old | ⟨before, isBefore, same⟩
      · exact fresh step (List.mem_append_right _ within) ownStep old
      · exact across before isBefore step within (.inr ownStep) same

end

end Own

/-! ## Declared steps -/

/-- Registers declared steps, one after the other. -/
def register (machine : Machine) (steps : List Step) : Machine :=
  steps.foldl (fun machine step => machine.add false step) machine

/-- The declared steps that are taken in when they are registered one after the other: those that are not
plain and whose names are not taken by then. -/
def taken (machine : Machine) : List Step → List Step
  | [] => []
  | step :: rest =>
    if step.kind ≠ .plain ∧ step.name ∉ machine.names then step :: (machine.add false step).taken rest
    else (machine.add false step).taken rest

theorem Keeps.register (keeps : machine.Keeps step) (new : List Step) : (machine.register new).Keeps step := by
  induction new generalizing machine with
  | nil => exact keeps
  | cons first rest ih => exact ih (keeps.add false first)

theorem Keeps.name_mem (keeps : machine.Keeps step) : step.name ∈ machine.names := by
  obtain ⟨stored, isStored, same⟩ := keeps
  have name : stored.name = step.name := congrArg (·.signature.name) same
  rw [← name]
  exact List.mem_map_of_mem isStored

theorem mem_names_add_of_mem {name : String} (member : name ∈ machine.names) (untyped : Bool) (new : Step) :
    name ∈ (machine.add untyped new).names := by
  obtain ⟨stored, isStored, rfl⟩ := List.mem_map.1 member
  exact Keeps.name_mem (Keeps.add ⟨stored, isStored, rfl⟩ untyped new)

/-- A declared step that is not taken in brings in no names. -/
theorem names_add_of_not_taken (left : ¬ (step.kind ≠ .plain ∧ step.name ∉ machine.names)) :
    (machine.add false step).names = machine.names := by
  rw [add_eq]
  split
  · rfl
  · next typed =>
    split
    · exact names_markDuplicate _ _
    · next absent => exact absurd ⟨fun plain => typed ⟨rfl, plain⟩, absent⟩ left

/-- The names of steps that are taken in were free, and differ. -/
theorem taken_names (machine : Machine) (steps : List Step) :
    (∀ root ∈ machine.taken steps, root.name ∉ machine.names) ∧ ((machine.taken steps).map Step.name).Nodup := by
  induction steps generalizing machine with
  | nil => exact ⟨fun _ member => absurd member List.not_mem_nil, List.nodup_nil⟩
  | cons step rest ih =>
    obtain ⟨free, distinct⟩ := ih (machine.add false step)
    have freeBefore : ∀ root ∈ (machine.add false step).taken rest, root.name ∉ machine.names :=
      fun root isRoot old => free root isRoot (mem_names_add_of_mem old false step)
    unfold taken
    split
    · next wanted =>
      have stored : (machine.add false step).Keeps step := by
        rw [add_of_fresh (.inr wanted.1) wanted.2]
        exact (keeps_store wanted.2).addAll _
      refine ⟨fun root isRoot => ?_, ?_⟩
      · rcases List.mem_cons.1 isRoot with rfl | later
        · exact wanted.2
        · exact freeBefore root later
      · rw [List.map_cons, List.nodup_cons]
        refine ⟨fun member => ?_, distinct⟩
        obtain ⟨root, isRoot, same⟩ := List.mem_map.1 member
        exact free root isRoot (same ▸ stored.name_mem)
    · exact ⟨freeBefore, distinct⟩

/-- **Steps with names of their own are stored**, if they are inside declared steps that are taken in. -/
theorem register_keeps {own : Step → Prop} {steps : List Step}
    (separate : ∀ root ∈ machine.taken steps, Separate own root)
    (across : (machine.taken steps).Pairwise fun first second =>
      ∀ other ∈ second.inner, own other → ∀ before ∈ first :: first.inner, before.name ≠ other.name)
    (fresh : ∀ root ∈ machine.taken steps, ∀ other ∈ root.inner, own other → other.name ∉ machine.names) :
    ∀ root ∈ machine.taken steps, ∀ other ∈ root.inner, own other → (machine.register steps).Keeps other := by
  induction steps generalizing machine with
  | nil => exact fun _ member => absurd member List.not_mem_nil
  | cons step rest ih =>
    have onward : machine.register (step :: rest) = (machine.add false step).register rest := rfl
    rw [onward]
    unfold taken at separate across fresh ⊢
    split at separate
    · next wanted =>
      rw [if_pos wanted] at across fresh ⊢
      obtain ⟨before, acrossRest⟩ := List.pairwise_cons.1 across
      intro root isRoot
      rcases List.mem_cons.1 isRoot with rfl | later
      · obtain ⟨-, inside⟩ := add_keeps root machine false (.inr wanted.1) wanted.2 (separate root List.mem_cons_self)
          (fresh root List.mem_cons_self)
        exact fun other within isOwn => (inside other within isOwn).register rest
      · refine ih (fun root isRoot => separate root (List.mem_cons_of_mem _ isRoot)) acrossRest ?_ root later
        intro root isRoot other within isOwn taken
        rcases mem_names_add taken with old | ⟨earlier, isEarlier, same⟩
        · exact fresh root (List.mem_cons_of_mem _ isRoot) other within isOwn old
        · exact before root isRoot other within isOwn earlier isEarlier same
    · next left =>
      rw [if_neg left] at across fresh ⊢
      refine ih separate across fun root isRoot other within isOwn taken => ?_
      rw [names_add_of_not_taken left] at taken
      exact fresh root isRoot other within isOwn taken

end Machine

end StepChart
