import StepChart.Proofs.Handlers.LeastFamily

/-!
# Propagation is stable

Spreading handlers once more does nothing: every handler that a transition brings along is held after the
first time, so nothing is given, no step becomes pending, and the first pass is the last. What the names in
transitions refer to is looked up afresh each time, whatever was found before. `propagate_stable` says this,
and that propagation only adds handlers and changes nothing else about a machine.
-/

namespace StepChart

/-! ## Nothing to give -/

namespace Spread

variable {spread : Spread}

@[simp] theorem names_seed (spread : Spread) (gifts : List (String × String)) :
    (spread.seed gifts).names = spread.names :=
  Step.map_name_congr (bare_foldl_give Prod.fst (fun gift => [gift.2]) gifts spread)

/-- Handlers that are held already are not given again. -/
theorem seed_eq_self (distinct : spread.names.Nodup) {gifts : List (String × String)}
    (held : ∀ gift ∈ gifts, gift.2 ∈ heldIn spread.steps gift.1) : spread.seed gifts = spread := by
  unfold seed
  induction gifts with
  | nil => rfl
  | cons gift gifts ih =>
    have here : spread.give gift.1 [gift.2] = spread := by
      rcases give_cases distinct gift.1 [gift.2] with ⟨same, _⟩ | ⟨_, _, handler, isGiven, _, fresh⟩
      · exact same
      · rw [List.mem_singleton.1 isGiven] at fresh
        exact absurd (held gift List.mem_cons_self) fresh
    rw [List.foldl_cons, here]
    exact ih fun other member => held other (List.mem_cons_of_mem _ member)

theorem visit_eq_self (idle : spread.pending = []) (name : String) : spread.visit name = spread := by
  unfold visit
  rw [idle]
  rfl

/-- Where no step is pending, the first pass is the last one and changes nothing. -/
theorem steps_passes (idle : spread.pending = []) (order : List String) (bound : Nat) :
    (spread.passes order (bound + 1)).steps = spread.steps := by
  have run : ∀ start : Spread, start.pending = [] → order.foldl visit start = start := by
    intro start quiet
    induction order with
    | nil => rfl
    | cons name order ih => rw [List.foldl_cons, visit_eq_self quiet, ih]
  have once : spread.pass order = { spread with changed := false } := run _ idle
  simp only [passes, once]
  rfl

end Spread

namespace Machine

variable {machine : Machine}

/-! ## What is held afterwards -/

/-- The state in which spreading begins. -/
def unspread (machine : Machine) : Spread := ⟨machine.resolveAll.steps, [], false⟩

theorem nodup_names_unspread (machine : Machine) : machine.unspread.names.Nodup := machine.resolveAll.names_nodup

theorem propagate_steps (machine : Machine) : machine.propagate.steps =
    ((machine.unspread.seed (seedsIn machine.resolveAll.steps)).passes machine.resolveAll.names
      machine.resolveAll.passBound).steps := rfl

/-- Nothing that was given first is lost in the passes. -/
theorem heldIn_seed_subset (machine : Machine) (name : String) :
    heldIn (machine.unspread.seed (seedsIn machine.resolveAll.steps)).steps name ⊆ machine.propagate.handlers name := by
  have distinct : (machine.unspread.seed (seedsIn machine.resolveAll.steps)).names.Nodup := by
    rw [Spread.names_seed]
    exact machine.nodup_names_unspread
  rw [handlers, propagate_steps, Spread.passes_eq_passesBy]
  exact Spread.heldIn_subset_passesBy distinct _ _ name

/-- Propagation takes no handler away. -/
theorem handlers_subset_propagate (machine : Machine) (name : String) :
    machine.handlers name ⊆ machine.propagate.handlers name := by
  intro handler held
  rw [← handlers_resolveAll] at held
  exact machine.heldIn_seed_subset name ((Spread.mem_heldIn_seed machine.nodup_names_unspread).2 (.inl held))

/-- After propagation a step has what transitions bring along for it. -/
theorem seedsOf_subset_propagate (machine : Machine) (name : String) :
    machine.seedsOf name ⊆ machine.propagate.handlers name := by
  intro handler seed
  have present : name ∈ machine.resolveAll.names := by
    rw [names_resolveAll]
    obtain ⟨_, _, _, _, _, _, found | found | found⟩ := seed
    · exact mem_names_of_key? found
    · exact mem_names_of_key? found
    · exact mem_names_of_key? found
  exact machine.heldIn_seed_subset name ((Spread.mem_heldIn_seed machine.nodup_names_unspread).2
    (.inr ⟨mem_seedsIn_resolveAll.2 seed, present, seed.1⟩))

/-! ## Once more -/

/-- Where every step has what transitions bring along for it, propagation only looks up names. -/
theorem propagate_eq_resolveAll (held : ∀ name, machine.seedsOf name ⊆ machine.handlers name) :
    machine.propagate = machine.resolveAll := by
  have nothing : machine.unspread.seed (seedsIn machine.resolveAll.steps) = machine.unspread := by
    refine Spread.seed_eq_self machine.nodup_names_unspread fun gift isGift => ?_
    have has := held gift.1 (mem_seedsIn_resolveAll.1 isGift)
    rw [← handlers_resolveAll] at has
    exact has
  refine Machine.ext rfl rfl rfl rfl ?_
  rw [propagate_steps, nothing]
  exact Spread.steps_passes rfl _ _

/-- Propagation does not change what transitions bring along. -/
theorem seedsOf_propagate_subset (machine : Machine) (name : String) :
    machine.propagate.seedsOf name ⊆ machine.seedsOf name := by
  rintro handler ⟨nonempty, step, isStep, transition, isTransition, same, found⟩
  obtain ⟨original, isOriginal, bare⟩ := exists_of_mem_propagate isStep
  rw [transitions_of_bare bare] at isTransition
  obtain ⟨before, isBefore, rfl⟩ := List.mem_map.1 isTransition
  rw [key?_propagate] at found
  exact ⟨nonempty, original, isOriginal, before, isBefore, same, found⟩

/-- Names that have just been looked up are not changed by looking them up again. -/
theorem resolveAll_propagate (machine : Machine) : machine.propagate.resolveAll = machine.propagate := by
  have resolved : ∀ step ∈ machine.propagate.steps, machine.propagate.resolveStep step = step := by
    intro step isStep
    have same : step.transitions.map machine.propagate.resolve = step.transitions := by
      refine (List.map_congr_left fun transition isTransition => ?_).trans (List.map_id _)
      have targets := targets_propagate isStep isTransition
      rw [← key?_propagate] at targets
      rw [resolve, ← targets]
      rfl
    cases step
    rw [resolveStep, same]
  refine Machine.ext rfl rfl rfl rfl ?_
  exact (List.map_congr_left resolved).trans (List.map_id _)

/-- **A second propagation does nothing.** -/
theorem propagate_propagate (machine : Machine) : machine.propagate.propagate = machine.propagate := by
  rw [propagate_eq_resolveAll, resolveAll_propagate]
  intro name handler seed
  exact machine.seedsOf_subset_propagate name (machine.seedsOf_propagate_subset name seed)

/-! ## Everything else -/

end Machine

/-- A step without its handlers and without the names that were looked up. -/
def Step.fixed (step : Step) : Step :=
  { step with transitions := step.transitions.map Transition.unresolved, migrations := .empty }

namespace Machine

/-- A machine without the handlers of its steps and without the names that were looked up. -/
def fixed (machine : Machine) : Machine :=
  machine.withSteps (machine.steps.map Step.fixed) (by
    rw [List.map_map]
    rfl)

theorem fixed_resolveStep (machine : Machine) (step : Step) : (machine.resolveStep step).fixed = step.fixed := by
  have same : (step.transitions.map machine.resolve).map Transition.unresolved =
      step.transitions.map Transition.unresolved := by
    rw [List.map_map]
    rfl
  rw [Step.fixed, resolveStep, same]
  rfl

/-- Propagation changes nothing about a machine but handlers and the names that were looked up. -/
theorem fixed_propagate (machine : Machine) : machine.propagate.fixed = machine.fixed := by
  have bare : ∀ steps : List Step, steps.map Step.fixed = (steps.map Step.withoutHandlers).map Step.fixed := by
    intro steps
    rw [List.map_map]
    rfl
  refine Machine.ext rfl rfl rfl rfl ?_
  calc machine.propagate.steps.map Step.fixed
      = (machine.resolveAll.steps.map Step.withoutHandlers).map Step.fixed := by rw [bare, bare_propagate]
    _ = (machine.steps.map machine.resolveStep).map Step.fixed := (bare _).symm
    _ = machine.steps.map Step.fixed := by
      rw [List.map_map]
      exact List.map_congr_left fun step _ => machine.fixed_resolveStep step

/-- **Propagation is stable**, whatever has been registered and propagated before: a second propagation gives
the same machine; no handler is lost; nothing but handlers and the names that were looked up is changed; and
every name in a transition has been looked up in the machine as it is now. -/
theorem propagate_stable (machine : Machine) :
    machine.propagate.propagate = machine.propagate ∧
    (∀ name, machine.handlers name ⊆ machine.propagate.handlers name) ∧
    machine.propagate.fixed = machine.fixed ∧
    ∀ step ∈ machine.propagate.steps, ∀ transition ∈ step.transitions,
      transition.targets = ⟨machine.propagate.key? transition.destination,
        machine.propagate.key? transition.resumption, machine.propagate.key? transition.migration⟩ := by
  refine ⟨machine.propagate_propagate, machine.handlers_subset_propagate, machine.fixed_propagate, ?_⟩
  intro step isStep transition isTransition
  rw [key?_propagate]
  exact targets_propagate isStep isTransition

/-- A name that was looked up before a step with a longer name came is looked up again. -/
example :
    let step (name : String) (transitions : List Transition) : Step :=
      { signature := { name, kind := .execution }, transitions }
    let early : Machine := (Machine.add false (step "first" [{ destination := "s.second.1" }])
      { receiverType := "", output := "", sequence := 0 }).add false (step "1" [])
    let late := early.propagate.add false (step "second.1" [])
    (early.propagate.steps.flatMap fun step => step.transitions.map (·.targets.destination)) = [some "1"] ∧
      (late.propagate.steps.flatMap fun step => step.transitions.map (·.targets.destination)) = [some "second.1"] := by
  decide

end Machine

end StepChart
