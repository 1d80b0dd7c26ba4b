import Mathlib.Logic.Relation
import Mathlib.Order.Bounds.Basic
import StepChart.Proofs.Handlers.ClosedFamily

/-!
# Propagation computes the least closed family

`propagate_isLeast` says that propagation ends with the least closed family of handler sets, that each
handler in it was there at first or has come along a path from a step that gained the handler of a
transition, and that no order of visiting the steps changes the result. The order of the names, in
which `propagate` works, is one schedule among many.
-/

namespace StepChart

open Text

namespace Machine

variable {machine : Machine}

/-! ## Schedules -/

/-- An order of the work: the order in which the steps give the handlers of their transitions, and
the order in which each pass visits the steps. -/
structure Schedule where
  seeding : List String
  passing : Nat → List String

/-- The schedule visits every step of the machine once in each round. -/
def Schedule.Visits (schedule : Schedule) (machine : Machine) : Prop :=
  schedule.seeding.Perm machine.names ∧ ∀ number, (schedule.passing number).Perm machine.names

/-- The schedule of `propagate`: always in the order of the names. -/
def byName (machine : Machine) : Schedule := ⟨machine.names, fun _ => machine.names⟩

/-- The handlers that the transitions of a step bring along. -/
def giftsOf (machine : Machine) (name : String) : List (String × String) :=
  seedsIn (machine.step? name).toList

/-- Looks up the names in all transitions and spreads the handlers in the order of a schedule. -/
def propagateBy (machine : Machine) (schedule : Schedule) : Machine :=
  let machine := machine.resolveAll
  let seeded := (Spread.mk machine.steps [] false).seed (schedule.seeding.flatMap machine.giftsOf)
  machine.withSteps (seeded.passesBy schedule.passing machine.passBound).steps
    (Step.map_name_congr ((seeded.bare_passesBy _ _).trans (Spread.bare_foldl_give _ _ _ _)))

theorem giftsOf_name {step : Step} (member : step ∈ machine.steps) :
    machine.giftsOf step.name = step.transitions.flatMap Transition.seeds := by
  simp [giftsOf, step?_name member, seedsIn]

theorem flatMap_giftsOf_names : machine.names.flatMap machine.giftsOf = seedsIn machine.steps := by
  rw [names, List.flatMap_map]
  exact List.flatMap_congr fun step member => giftsOf_name member

/-- **`propagate` is one schedule among many**: the one that goes by name. -/
theorem propagate_eq_propagateBy : machine.propagate = machine.propagateBy machine.byName := by
  have gifts : machine.names.flatMap machine.resolveAll.giftsOf = seedsIn machine.resolveAll.steps := by
    rw [← names_resolveAll, flatMap_giftsOf_names]
  unfold propagate propagateBy
  simp only [byName, gifts, Spread.passes_eq_passesBy, names_resolveAll]
  rfl

theorem mem_gifts_iff {schedule : Schedule} (visits : schedule.Visits machine) (gift : String × String) :
    gift ∈ schedule.seeding.flatMap machine.resolveAll.giftsOf ↔ gift ∈ seedsIn machine.resolveAll.steps := by
  rw [(visits.1.flatMap_right _).mem_iff, ← names_resolveAll, flatMap_giftsOf_names]

/-- But for their handlers, the steps are those in which the names have been looked up. -/
theorem bare_propagateBy (schedule : Schedule) :
    (machine.propagateBy schedule).steps.map Step.withoutHandlers =
      machine.resolveAll.steps.map Step.withoutHandlers :=
  (Spread.bare_passesBy _ _ _).trans (Spread.bare_foldl_give _ _ _ _)

theorem isLeast_propagateBy (named : machine.HandlersNamed) {schedule : Schedule}
    (visits : schedule.Visits machine) :
    IsLeast {family | machine.Closed family} (machine.propagateBy schedule).handlers := by
  have same : machine.resolveAll.steps.map Step.name = machine.names := names_resolveAll
  have targets : ∀ seed ∈ seedsIn machine.resolveAll.steps, seed.1 ∈ machine.resolveAll.steps.map Step.name := by
    intro seed member
    rw [same]
    obtain ⟨_, _, _, _, _, _, found | found | found⟩ := mem_seedsIn_resolveAll.1 member
    · exact mem_names_of_key? found
    · exact mem_names_of_key? found
    · exact mem_names_of_key? found
  have covers : ∀ number, ∀ name ∈ machine.resolveAll.steps.map Step.name, name ∈ schedule.passing number := by
    intro number name member
    rw [same] at member
    exact (visits.2 number).mem_iff.2 member
  obtain ⟨closed, below⟩ := Spread.run_least (ready_resolveAll named) targets (mem_gifts_iff visits) covers
    (Nat.lt_of_lt_of_eq (Nat.lt_succ_self _) passBound_eq.symm)
  exact ⟨closedOver_resolveAll.1 closed, fun family closed => below family (closedOver_resolveAll.2 closed)⟩

theorem visits_byName : machine.byName.Visits machine :=
  ⟨.refl _, fun _ => .refl _⟩

theorem isLeast_propagate (named : machine.HandlersNamed) :
    IsLeast {family | machine.Closed family} machine.propagate.handlers := by
  rw [propagate_eq_propagateBy]
  exact isLeast_propagateBy named visits_byName

/-- No order of the work changes the result. -/
theorem propagateBy_eq_propagate (named : machine.HandlersNamed) {schedule : Schedule}
    (visits : schedule.Visits machine) : machine.propagateBy schedule = machine.propagate := by
  have handlers := (isLeast_propagateBy named visits).unique (isLeast_propagateBy named visits_byName)
  have steps : (machine.propagateBy schedule).steps = (machine.propagateBy machine.byName).steps :=
    eq_of_heldIn_eq ((bare_propagateBy _).trans (bare_propagateBy _).symm) (names_nodup _) handlers
  rw [propagate_eq_propagateBy]
  exact Machine.ext rfl rfl rfl rfl steps

/-! ## Where handlers come from -/

/-- A step that has gained a handler hands what it has on to another one. -/
def Hands (machine : Machine) (source target : String) : Prop :=
  machine.PassesTo source target ∧ machine.propagate.handlers source ≠ machine.handlers source

/-- A handler comes along a path from a seed: a step gained the handler of a transition, and from
there steps that have all gained something lead to the place where the handler was at first or came
with a transition, and from that place on to the step. -/
def Justified (machine : Machine) (name handler : String) : Prop :=
  ∃ origin source, (∃ seed ∈ machine.seedsOf origin, seed ∉ machine.handlers origin) ∧
    Relation.ReflTransGen machine.Hands origin source ∧ Relation.ReflTransGen machine.Hands source name ∧
    handler ∈ machine.handlers source ∪ machine.seedsOf source

theorem handlers_subset_of_hands (named : machine.HandlersNamed) {source target : String}
    (path : Relation.ReflTransGen machine.Hands source target) :
    machine.propagate.handlers source ⊆ machine.propagate.handlers target := by
  have closed := (isLeast_propagate named).1
  induction path with
  | refl => exact subset_rfl
  | tail _ hands ih => exact ih.trans (closed.inherited _ _ hands.1 hands.2)

theorem mem_handlers_of_justified (named : machine.HandlersNamed) {name handler : String}
    (justified : machine.Justified name handler) : handler ∈ machine.propagate.handlers name := by
  obtain ⟨_, source, _, _, path, held⟩ := justified
  exact handlers_subset_of_hands named path ((isLeast_propagate named).1.held source held)

/-- What was there at first, with what has come along paths from seeds, is closed. -/
theorem closed_justified (named : machine.HandlersNamed) :
    machine.Closed fun name => {handler | handler ∈ machine.handlers name ∨ machine.Justified name handler} := by
  refine ⟨fun name handler held => ?_, fun source target passes more handler held => ?_⟩
  · by_cases old : handler ∈ machine.handlers name
    · exact .inl old
    · have seed : handler ∈ machine.seedsOf name := held.resolve_left old
      exact .inr ⟨name, name, ⟨handler, seed, old⟩, .refl, .refl, .inr seed⟩
  · -- the source has gained something, so a path from a seed leads to it
    obtain ⟨gain, isGain, fresh⟩ : ∃ gain, machine.Justified source gain ∧ gain ∉ machine.handlers source := by
      by_contra none
      push Not at none
      exact more (Set.ext fun gain => ⟨fun held => held.elim id (none gain), .inl⟩)
    have hands : machine.Hands source target :=
      ⟨passes, fun same => fresh (same ▸ mem_handlers_of_justified named isGain)⟩
    obtain ⟨origin, through, seeded, first, second, _⟩ := isGain
    rcases held with old | ⟨origin', source', seeded', first', second', held⟩
    · exact .inr ⟨origin, source, seeded, first.trans second, .single hands, .inl old⟩
    · exact .inr ⟨origin', source', seeded', first', second'.tail hands, held⟩

/-- **Propagation computes the least closed family.** Each handler in it was there at first or has come
along a path from a seed, and the order in which the steps are visited does not matter. -/
theorem propagate_isLeast (machine : Machine) (named : machine.HandlersNamed) :
    IsLeast {family | machine.Closed family} machine.propagate.handlers ∧
      (∀ name handler, handler ∈ machine.propagate.handlers name ↔
        handler ∈ machine.handlers name ∨ machine.Justified name handler) ∧
      ∀ schedule : Schedule, schedule.Visits machine → machine.propagateBy schedule = machine.propagate := by
  refine ⟨isLeast_propagate named, fun name handler => ⟨fun held => ?_, ?_⟩, fun schedule visits => ?_⟩
  · exact (isLeast_propagate named).2 (closed_justified named) name held
  · rintro (old | justified)
    · exact (isLeast_propagate named).1.held name (.inl old)
    · exact mem_handlers_of_justified named justified
  · exact propagateBy_eq_propagate named visits

/-- A step brings a handler into a ring of two steps, one of which has a handler of its own. -/
def ring : Machine where
  receiverType := "Ring"
  output := "ring"
  sequence := 0
  steps :=
    [{ signature := { name := "first" }
       transitions := [{ destination := "s.second", migration := "handler" }] },
     { signature := { name := "second" }
       transitions := [{ destination := "third", inherits := true }]
       migrations := .ofList ["old"] },
     { signature := { name := "third" }
       transitions := [{ destination := "second", inherits := true }] }]
  ascending := by decide

theorem propagate_isLeast_ring :
    ring.HandlersNamed ∧ IsLeast {family | ring.Closed family} ring.propagate.handlers ∧
      ("old" ∈ ring.propagate.handlers "third" ↔ "old" ∈ ring.handlers "third" ∨ ring.Justified "third" "old") ∧
      ring.propagateBy ⟨["third", "first", "second"], fun _ => ["second", "third", "first"]⟩ = ring.propagate := by
  have named : ring.HandlersNamed := by decide
  have seeding : ["third", "first", "second"].Perm ring.names := by decide
  have passing : ["second", "third", "first"].Perm ring.names := by decide
  obtain ⟨least, justified, orders⟩ := propagate_isLeast ring named
  exact ⟨named, least, justified "third" "old", orders _ ⟨seeding, fun _ => passing⟩⟩

end Machine

end StepChart
