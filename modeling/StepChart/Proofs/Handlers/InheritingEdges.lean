import StepChart.Proofs.Handlers.LeastFamily
import StepChart.Proofs.Machine.Registration
import StepChart.Proofs.Step.Transitions

/-!
# Inheriting transitions

After propagation, does every step hold what the steps before it pass on? A step that has gained a
handler passes everything on; a step that has gained nothing keeps the handlers that it had before to
itself. `edgesClosed_propagate_iff` is the exact condition, in terms of the machine before propagation,
and `not_edgesClosed_waiting` a machine that does not meet it: the handler of a repeat is in its step
from the start, and is never passed on.
-/

namespace StepChart

open Text

/-! ## Machines that can be reached -/

/-- Steps that are made from a signature by adding handlers and transitions; those inside them are made
in the same way. -/
inductive Step.Made : Step → Prop
  | new (signature : Signature) (usages : NameSet) (isSubroutine : Bool) {subSteps : List Step}
      (inside : ∀ sub ∈ subSteps, Made sub) : Made { signature, subSteps, usages, isSubroutine }
  | addMigration {step : Step} (made : Made step) (migration : String) : Made (step.addMigration migration)
  | addTransition {step : Step} (made : Made step) (limit : Nat) (transition : Transition) :
      Made (step.addTransition limit transition)

/-- Machines that registration and propagation lead to. -/
inductive Machine.Reached : Machine → Prop
  | new (receiverType output : String) (sequence : Nat) : Reached { receiverType, output, sequence }
  | add {machine : Machine} (reached : Reached machine) {step : Step} (made : step.Made) (untyped : Bool) :
      Reached (machine.add untyped step)
  | propagate {machine : Machine} (reached : Reached machine) : Reached machine.propagate

namespace Step

/-- No way of making a step gives it an empty handler. -/
theorem Made.named {step : Step} (made : step.Made) : step.Everywhere fun step => "" ∉ step.migrations := by
  induction made with
  | new signature usages isSubroutine inside ih => exact ⟨List.not_mem_nil, ih⟩
  | @addMigration step made migration ih =>
    obtain ⟨here, inside⟩ := ih
    refine ⟨fun held => ?_, by rwa [addMigration_eq]⟩
    rcases mem_addMigration.1 held with old | ⟨_, nonempty⟩
    · exact here old
    · exact nonempty rfl
  | @addTransition step made limit transition ih =>
    obtain ⟨here, inside⟩ := ih
    refine ⟨fun held => ?_, by rwa [addTransition_eq]⟩
    rw [migrations_addTransition] at held
    split at held
    · rcases mem_addMigration.1 held with old | ⟨_, nonempty⟩
      · exact here old
      · exact nonempty rfl
    · exact here held

end Step

namespace Machine

variable {machine : Machine}

theorem HandlersNamed.propagate (named : machine.HandlersNamed) : machine.propagate.HandlersNamed := by
  have closed : machine.Closed fun _ => {handler | handler ≠ ""} := by
    refine ⟨fun name => Set.union_subset ?_ fun handler seed => seed.1, fun _ _ _ _ => subset_rfl⟩
    rintro handler ⟨step, member, _, held⟩ rfl
    exact named step member held
  intro step member held
  exact (isLeast_propagate named).2 closed step.name ⟨step, member, rfl, held⟩ rfl

theorem Reached.named (reached : machine.Reached) : machine.HandlersNamed := by
  induction reached with
  | new receiverType output sequence => exact fun _ member => absurd member List.not_mem_nil
  | propagate _ ih => exact ih.propagate
  | @add machine _ step made untyped ih =>
    refine add_induction (fun machine name named => ?_) (fun machine step here _ named => ?_) untyped step made.named
      machine ih
    · rintro _ member
      obtain ⟨old, isOld, rfl⟩ := List.mem_map.1 member
      split <;> exact named old isOld
    · intro other member
      rcases mem_insertStep member with rfl | old
      · exact here
      · exact named other old

/-! ## What a step gains -/

/-- The handlers that a step gains: those of transitions, and those that steps which gain something
have or gain themselves. -/
inductive Gains (machine : Machine) : (name handler : String) → Prop
  | seed {name handler : String} (seed : handler ∈ machine.seedsOf name) (fresh : handler ∉ machine.handlers name) :
      Gains machine name handler
  | own {source name other handler : String} (gains : Gains machine source other)
      (passes : machine.PassesTo source name) (held : handler ∈ machine.handlers source)
      (fresh : handler ∉ machine.handlers name) : Gains machine name handler
  | passed {source name handler : String} (gains : Gains machine source handler)
      (passes : machine.PassesTo source name) (fresh : handler ∉ machine.handlers name) : Gains machine name handler

theorem Gains.fresh {name handler : String} (gains : machine.Gains name handler) :
    handler ∉ machine.handlers name := by
  cases gains with
  | seed _ fresh => exact fresh
  | own _ _ _ fresh => exact fresh
  | passed _ _ fresh => exact fresh

theorem Gains.held (named : machine.HandlersNamed) {name handler : String} (gains : machine.Gains name handler) :
    handler ∈ machine.propagate.handlers name := by
  have closed := (isLeast_propagate named).1
  have grown : ∀ {source other}, machine.Gains source other → other ∈ machine.propagate.handlers source →
      machine.propagate.handlers source ≠ machine.handlers source :=
    fun gains held same => gains.fresh (same ▸ held)
  induction gains with
  | seed seed _ => exact closed.held _ (.inr seed)
  | own gains passes held _ ih => exact closed.inherited _ _ passes (grown gains ih) (closed.held _ (.inl held))
  | passed gains passes _ ih => exact closed.inherited _ _ passes (grown gains ih) ih

/-- A step ends with what it had and what it gains. -/
theorem mem_handlers_propagate (named : machine.HandlersNamed) {name handler : String} :
    handler ∈ machine.propagate.handlers name ↔ handler ∈ machine.handlers name ∨ machine.Gains name handler := by
  constructor
  · have closed : machine.Closed fun name => {handler | handler ∈ machine.handlers name ∨ machine.Gains name handler} := by
      refine ⟨fun name handler held => ?_, fun source target passes more handler held => ?_⟩
      · by_cases old : handler ∈ machine.handlers name
        · exact .inl old
        · exact .inr (.seed (held.resolve_left old) old)
      · obtain ⟨gain, gains⟩ : ∃ gain, machine.Gains source gain := by
          by_contra none
          push Not at none
          exact more (Set.ext fun gain => ⟨fun held => held.resolve_right (none gain), .inl⟩)
        by_cases old : handler ∈ machine.handlers target
        · exact .inl old
        · rcases held with own | passed
          · exact .inr (.own gains passes own old)
          · exact .inr (.passed passed passes old)
    exact fun held => (isLeast_propagate named).2 closed name held
  · rintro (old | gains)
    · exact (isLeast_propagate named).1.held name (.inl old)
    · exact gains.held named

/-! ## Closed transitions -/

/-- Every inheriting transition is closed: its destination has all handlers of its step, and so has the
step that runs after a subroutine. -/
def EdgesClosed (machine : Machine) : Prop :=
  ∀ source ∈ machine.steps, ∀ transition ∈ source.transitions, ∀ target ∈ machine.steps,
    (transition.inherits = true → machine.key? transition.destination = some target.name →
      ∀ handler ∈ source.migrations, handler ∈ target.migrations) ∧
    (machine.key? transition.resumption = some target.name →
      ∀ handler ∈ source.migrations, handler ∈ target.migrations)

instance (machine : Machine) : Decidable machine.EdgesClosed :=
  inferInstanceAs (Decidable (∀ source ∈ machine.steps, ∀ transition ∈ source.transitions, ∀ target ∈ machine.steps,
    (transition.inherits = true → machine.key? transition.destination = some target.name →
      ∀ handler ∈ source.migrations, handler ∈ target.migrations) ∧
    (machine.key? transition.resumption = some target.name →
      ∀ handler ∈ source.migrations, handler ∈ target.migrations)))

theorem edgesClosed_iff : machine.EdgesClosed ↔
    ∀ source target, machine.PassesTo source target → machine.handlers source ⊆ machine.handlers target := by
  constructor
  · rintro closed _ target ⟨source, isSource, rfl, transition, isTransition, passes⟩ handler held
    have present : target ∈ machine.names := by
      rcases passes with ⟨_, found⟩ | found
      · exact mem_names_of_key? found
      · exact mem_names_of_key? found
    obtain ⟨step, isStep, rfl⟩ := List.mem_map.1 present
    have has : handler ∈ source.migrations := (mem_heldIn_name machine.names_nodup isSource).1 held
    obtain ⟨direct, after⟩ := closed source isSource transition isTransition step isStep
    rcases passes with ⟨inherits, found⟩ | found
    · exact ⟨step, isStep, rfl, direct inherits found handler has⟩
    · exact ⟨step, isStep, rfl, after found handler has⟩
  · intro closed source isSource transition isTransition target isTarget
    have passed : machine.PassesTo source.name target.name →
        ∀ handler ∈ source.migrations, handler ∈ target.migrations := fun passes handler has =>
      (mem_heldIn_name machine.names_nodup isTarget).1 (closed _ _ passes ⟨source, isSource, rfl, has⟩)
    exact ⟨fun inherits found => passed ⟨source, isSource, rfl, transition, isTransition, .inl ⟨inherits, found⟩⟩,
      fun found => passed ⟨source, isSource, rfl, transition, isTransition, .inr found⟩⟩

/-- Propagation does not change where handlers are passed on to. -/
theorem passesTo_propagate {source target : String} :
    machine.propagate.PassesTo source target ↔ machine.PassesTo source target := by
  unfold PassesTo
  rw [key?_propagate]
  constructor
  · rintro ⟨step, member, rfl, transition, isTransition, passes⟩
    obtain ⟨original, isOriginal, same⟩ := exists_of_mem_propagate member
    rw [transitions_of_bare same] at isTransition
    obtain ⟨resolved, isResolved, rfl⟩ := List.mem_map.1 isTransition
    exact ⟨original, isOriginal, (name_of_bare same).symm, resolved, isResolved, passes⟩
  · rintro ⟨original, isOriginal, rfl, transition, isTransition, passes⟩
    obtain ⟨step, member, same⟩ := exists_mem_propagate isOriginal
    refine ⟨step, member, name_of_bare same, machine.resolve transition, ?_, passes⟩
    rw [transitions_of_bare same]
    exact List.mem_map_of_mem isTransition

/-- **The exact condition for closed transitions.** After propagation every inheriting transition is
closed if and only if each step that gains nothing passes on only what the step after it has or gains
anyway. -/
theorem edgesClosed_propagate_iff (machine : Machine) (reached : machine.Reached) :
    machine.propagate.EdgesClosed ↔ ∀ source target, machine.PassesTo source target →
      (¬ ∃ handler, machine.Gains source handler) → ∀ handler ∈ machine.handlers source,
        handler ∈ machine.handlers target ∨ machine.Gains target handler := by
  have named := reached.named
  rw [edgesClosed_iff]
  constructor
  · intro closed source target passes _ handler held
    refine (mem_handlers_propagate named).1 ?_
    exact closed source target (passesTo_propagate.2 passes) ((mem_handlers_propagate named).2 (.inl held))
  · intro condition source target passes handler held
    have passes := passesTo_propagate.1 passes
    by_cases gaining : ∃ handler, machine.Gains source handler
    · obtain ⟨gain, gains⟩ := gaining
      have grown : machine.propagate.handlers source ≠ machine.handlers source := fun same =>
        gains.fresh (same ▸ gains.held named)
      exact (isLeast_propagate named).1.inherited source target passes grown held
    · have old : handler ∈ machine.handlers source :=
        ((mem_handlers_propagate named).1 held).resolve_right fun gains => gaining ⟨handler, gains⟩
      exact (mem_handlers_propagate named).2 (condition source target passes gaining handler old)

/-- A step that repeats with a handler in force, and then goes on to the next one. -/
def waitingStep : Step :=
  let step : Step := { signature := { name := "wait", kind := .execution } }
  (step.addTransition 30 { migration := "handler" }).addTransition 30 { destination := "work", inherits := true }

/-- A machine of two steps, the first of which waits. -/
def waiting : Machine :=
  let machine : Machine := { receiverType := "Waiting", output := "waiting", sequence := 0 }
  (machine.add false waitingStep).add false { signature := { name := "work", kind := .execution } }

theorem reached_waiting : waiting.Reached := by
  have start : Machine.Reached { receiverType := "Waiting", output := "waiting", sequence := 0 } := .new _ _ _
  have plain : ∀ signature : Signature, Step.Made { signature } := fun signature =>
    .new signature .empty false fun _ member => absurd member List.not_mem_nil
  have wait : waitingStep.Made := by
    unfold waitingStep
    exact ((plain _).addTransition 30 _).addTransition 30 _
  unfold waiting
  exact (start.add wait false).add (plain _) false

/-- The handler of a repeat is not passed on: not every machine that can be reached ends with its
transitions closed. -/
theorem not_edgesClosed_waiting : ¬ ∀ machine : Machine, machine.Reached → machine.propagate.EdgesClosed := by
  intro closed
  have open_ : ¬ waiting.propagate.EdgesClosed := by decide
  exact open_ (closed waiting reached_waiting)

/-- What the condition says of it: a step that gains nothing has a handler that the next one never gets. -/
theorem waiting_keeps_handler : ∃ source target, waiting.PassesTo source target ∧
    (¬ ∃ handler, waiting.Gains source handler) ∧
    ∃ handler ∈ waiting.handlers source, handler ∉ waiting.handlers target ∧ ¬ waiting.Gains target handler := by
  have open_ : ¬ waiting.propagate.EdgesClosed := by decide
  rw [edgesClosed_propagate_iff waiting reached_waiting] at open_
  push Not at open_
  simpa using open_

end Machine

end StepChart
