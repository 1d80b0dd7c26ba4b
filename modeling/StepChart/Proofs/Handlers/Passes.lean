import Mathlib.Algebra.Order.BigOperators.Group.List
import Mathlib.Algebra.Order.Group.Nat
import Mathlib.Data.List.Perm.Subperm
import StepChart.Proofs.Handlers.Gift

/-!
# Passes over the steps

`Invariant` says what holds at every moment while handlers are spread: a step that has gained a
handler is pending or has passed all it holds on to its heirs, and nothing was given that a closed
family does not have. One gift keeps it (`Invariant.give`), hence a visit and a pass do.

A pass that changes nothing leaves no visited step pending, and every other pass adds a pair of a step
and a handler (`pass_progress`), so that enough passes come to an end.
-/

namespace StepChart

open Text

/-- The steps that the step of a name passes its handlers on to. -/
def heirsIn (steps : List Step) (name : String) : Set String :=
  {heir | ∃ step ∈ steps, step.name = name ∧ heir ∈ step.transitions.flatMap Transition.heirs}

/-- The handlers that transitions bring along, each with the step it is given to. -/
def seedsIn (steps : List Step) : List (String × String) :=
  steps.flatMap fun step => step.transitions.flatMap Transition.seeds

/-- What spreading relies on: names are distinct, every heir is a step, and no handler is empty. -/
structure Ready (start : List Step) : Prop where
  distinct : (start.map Step.name).Nodup
  heirs : ∀ name, ∀ heir ∈ heirsIn start name, heir ∈ start.map Step.name
  named : ∀ name, "" ∉ heldIn start name

/-- A family that has what the steps have and what transitions bring along, and in which a step with
more than it had at first passes everything on. -/
structure ClosedOver (start : List Step) (family : Family) : Prop where
  held : ∀ name, heldIn start name ⊆ family name
  seeded : ∀ seed ∈ seedsIn start, seed.2 ∈ family seed.1
  inherited : ∀ name, family name ≠ heldIn start name → ∀ heir ∈ heirsIn start name, family name ⊆ family heir

theorem Transition.mem_heirs {transition : Transition} {heir : String} :
    heir ∈ transition.heirs ↔ (transition.inherits = true ∧ transition.targets.destination = some heir) ∨
      transition.targets.resumption = some heir := by
  unfold heirs
  by_cases inherits : transition.inherits = true <;> simp [inherits]

theorem Transition.mem_seeds {transition : Transition} {name handler : String} :
    (name, handler) ∈ transition.seeds ↔ handler ≠ "" ∧ transition.migration = handler ∧
      (transition.targets.destination = some name ∨ transition.targets.resumption = some name ∨
        transition.targets.migration = some name) := by
  unfold seeds
  split
  · rename_i empty
    have empty : transition.migration = "" := by simpa using empty
    simp only [List.not_mem_nil, false_iff]
    rintro ⟨nonempty, rfl, _⟩
    exact nonempty empty
  · rename_i nonempty
    have nonempty : transition.migration ≠ "" := by simpa using nonempty
    simp only [List.mem_filterMap, List.mem_cons, List.not_mem_nil, or_false, Option.map_eq_some_iff, Prod.mk.injEq]
    constructor
    · rintro ⟨target, isTarget, _, rfl, rfl, rfl⟩
      refine ⟨nonempty, rfl, ?_⟩
      rcases isTarget with same | same | same
      · exact .inl same.symm
      · exact .inr (.inl same.symm)
      · exact .inr (.inr same.symm)
    · rintro ⟨_, rfl, found⟩
      refine ⟨some name, ?_, name, rfl, rfl, rfl⟩
      rcases found with same | same | same
      · exact .inl same.symm
      · exact .inr (.inl same.symm)
      · exact .inr (.inr same.symm)

/-- A seed is the handler of a transition of one of the steps. -/
theorem exists_transition_of_seed {steps : List Step} {seed : String × String} (member : seed ∈ seedsIn steps) :
    seed.2 ≠ "" ∧ ∃ step ∈ steps, ∃ transition ∈ step.transitions, transition.migration = seed.2 := by
  obtain ⟨step, isStep, member⟩ := List.mem_flatMap.1 member
  obtain ⟨transition, isTransition, member⟩ := List.mem_flatMap.1 member
  obtain ⟨nonempty, same, _⟩ := Transition.mem_seeds.1 member
  exact ⟨nonempty, step, isStep, transition, isTransition, same⟩

/-- Where names are distinct, the heirs under a name are those of the step of that name. -/
theorem mem_heirsIn_name {steps : List Step} (distinct : (steps.map Step.name).Nodup) {step : Step}
    (member : step ∈ steps) {heir : String} :
    heir ∈ heirsIn steps step.name ↔ heir ∈ step.transitions.flatMap Transition.heirs := by
  constructor
  · rintro ⟨other, otherMember, same, isHeir⟩
    rwa [List.inj_on_of_nodup_map distinct otherMember member same] at isHeir
  · exact fun isHeir => ⟨step, member, rfl, isHeir⟩

theorem heirsIn_congr {steps start : List Step}
    (frame : steps.map Step.withoutHandlers = start.map Step.withoutHandlers) : heirsIn steps = heirsIn start := by
  have bare : ∀ steps : List Step, heirsIn steps = heirsIn (steps.map Step.withoutHandlers) := by
    intro steps
    funext name
    ext heir
    simp [heirsIn, Step.withoutHandlers, Step.name]
  rw [bare steps, frame, ← bare]

namespace Spread

/-! ## The invariant -/

/-- A step has a handler that it did not have at first. -/
def Gained (start : List Step) (spread : Spread) (name : String) : Prop :=
  ∃ handler ∈ heldIn spread.steps name, handler ∉ heldIn start name

/-- What holds while the handlers of `start` are spread. The steps in `busy` are passing theirs on. -/
structure Invariant (start : List Step) (busy : List String) (spread : Spread) : Prop where
  frame : spread.bare = start.map Step.withoutHandlers
  grown : ∀ name, heldIn start name ⊆ heldIn spread.steps name
  gained : ∀ name ∈ spread.pending, spread.Gained start name
  settled : ∀ name, name ∉ spread.pending → name ∉ busy → spread.Gained start name →
    ∀ heir ∈ heirsIn start name, heldIn spread.steps name ⊆ heldIn spread.steps heir
  below : ∀ family, ClosedOver start family → ∀ name, heldIn spread.steps name ⊆ family name

section

variable {start : List Step} {busy : List String} {spread : Spread}

theorem Invariant.init (start : List Step) : Invariant start [] (.mk start [] false) where
  frame := rfl
  grown := fun _ => subset_rfl
  gained := by simp
  settled := by
    rintro name - - ⟨handler, held, fresh⟩
    exact absurd held fresh
  below := fun _ closed => closed.held

theorem Invariant.names_eq (inv : Invariant start busy spread) : spread.names = start.map Step.name :=
  Step.map_name_congr inv.frame

theorem Invariant.distinct (ready : Ready start) (inv : Invariant start busy spread) : spread.names.Nodup :=
  inv.names_eq ▸ ready.distinct

/-- No step ever holds an empty handler. -/
theorem Invariant.named (ready : Ready start) (inv : Invariant start busy spread) (name : String) :
    "" ∉ heldIn spread.steps name := by
  have closed : ClosedOver start (fun _ => {handler | handler ≠ ""}) :=
    ⟨fun name handler held empty => ready.named name (empty ▸ held), fun _ member => (exists_transition_of_seed member).1,
      fun _ _ _ _ => subset_rfl⟩
  exact fun held => inv.below _ closed name held rfl

/-- **A gift keeps the invariant**, if every closed family has what is given. -/
theorem Invariant.give (ready : Ready start) (inv : Invariant start busy spread) {target : String}
    {given : List String}
    (justified : ∀ family, ClosedOver start family → ∀ handler ∈ given, handler ∈ family target) :
    Invariant start busy (spread.give target given) := by
  have distinct := inv.distinct ready
  have grows : ∀ name, heldIn spread.steps name ⊆ heldIn (spread.give target given).steps name :=
    fun name => heldIn_subset_give distinct target name given
  refine ⟨(bare_give ..).trans inv.frame, fun name => (inv.grown name).trans (grows name), ?_, ?_, ?_⟩
  · intro name pending
    rcases pending_give distinct pending with old | ⟨rfl, present, handler, isGiven, nonempty, fresh⟩
    · obtain ⟨handler, held, fresh⟩ := inv.gained name old
      exact ⟨handler, grows name held, fresh⟩
    · exact ⟨handler, (mem_heldIn_give distinct).2 (.inr ⟨rfl, present, isGiven, nonempty⟩), fun held =>
        fresh (inv.grown _ held)⟩
  · -- a step that is not pending holds what it held before, and its heirs do not hold less
    intro name idle notBusy gained heir isHeir
    obtain ⟨wasIdle, same⟩ := not_pending_give distinct idle
    rw [Gained, same] at gained
    rw [same]
    exact (inv.settled name wasIdle notBusy gained heir isHeir).trans (grows heir)
  · intro family closed name handler held
    rcases (mem_heldIn_give distinct).1 held with old | ⟨rfl, _, isGiven, _⟩
    · exact inv.below family closed name old
    · exact justified family closed handler isGiven

/-- Lets `step` give what it has to some other steps. -/
def serve (spread : Spread) (step : Step) (heirs : List String) : Spread :=
  heirs.foldl (fun spread heir => spread.give heir step.migrations.toList) spread

theorem mem_heldIn_serve {spread : Spread} (distinct : spread.names.Nodup) {step : Step} {heirs : List String}
    {name handler : String} :
    handler ∈ heldIn (spread.serve step heirs).steps name ↔ handler ∈ heldIn spread.steps name ∨
      name ∈ heirs ∧ name ∈ spread.names ∧ handler ∈ step.migrations.toList ∧ handler ≠ "" := by
  unfold serve
  induction heirs generalizing spread with
  | nil => simp
  | cons heir heirs ih =>
    rw [List.foldl_cons, ih (by rwa [names_give]), mem_heldIn_give distinct, names_give, List.mem_cons]
    constructor
    · rintro ((old | ⟨rfl, rest⟩) | ⟨member, rest⟩)
      · exact .inl old
      · exact .inr ⟨.inl rfl, rest⟩
      · exact .inr ⟨.inr member, rest⟩
    · rintro (old | ⟨rfl | member, rest⟩)
      · exact .inl (.inl old)
      · exact .inl (.inr ⟨rfl, rest⟩)
      · exact .inr ⟨member, rest⟩

theorem Invariant.serve (ready : Ready start) {step : Step} {heirs : List String} {spread : Spread}
    (inv : Invariant start busy spread)
    (justified : ∀ family, ClosedOver start family → ∀ heir ∈ heirs, ∀ handler ∈ step.migrations, handler ∈ family heir) :
    Invariant start busy (spread.serve step heirs) := by
  unfold Spread.serve
  induction heirs generalizing spread with
  | nil => exact inv
  | cons heir heirs ih =>
    rw [List.foldl_cons]
    refine ih (inv.give ready fun family closed => ?_) fun family closed other member => ?_
    · exact justified family closed heir List.mem_cons_self
    · exact justified family closed other (List.mem_cons_of_mem _ member)

/-- The spread in which the step `name` is no longer pending. -/
def release (spread : Spread) (name : String) : Spread :=
  { spread with pending := spread.pending.filter (· != name) }

theorem Invariant.release (inv : Invariant start [] spread) (name : String) :
    Invariant start [name] (spread.release name) where
  frame := inv.frame
  grown := inv.grown
  gained := fun other member => inv.gained other (List.mem_filter.1 member).1
  settled := by
    intro other idle notBusy
    refine inv.settled other (fun member => idle ?_) List.not_mem_nil
    exact List.mem_filter.2 ⟨member, by simpa using notBusy⟩
  below := inv.below

/-- A visit serves the heirs of a step that is pending, and does nothing else. -/
theorem visit_cases (spread : Spread) (name : String) :
    (spread.visit name = spread ∧ name ∉ spread.pending) ∨
    (spread.visit name = spread.release name ∧ name ∉ spread.names) ∨
    ∃ step ∈ spread.steps, step.name = name ∧ name ∈ spread.pending ∧
      spread.visit name = (spread.release name).serve step (step.transitions.flatMap Transition.heirs) := by
  unfold visit
  split
  · rename_i pending
    simp only
    split
    · rename_i absent
      refine .inr (.inl ⟨rfl, fun present => ?_⟩)
      obtain ⟨step, member, rfl⟩ := List.mem_map.1 present
      simpa using List.find?_eq_none.1 absent step member
    · rename_i step found
      exact .inr (.inr ⟨step, List.mem_of_find?_eq_some found, by simpa using List.find?_some found,
        by simpa using pending, rfl⟩)
  · rename_i idle
    exact .inl ⟨rfl, by simpa using idle⟩

theorem Gained.mem_names {name : String} (gained : spread.Gained start name) : name ∈ spread.names := by
  obtain ⟨_, ⟨step, member, rfl, _⟩, _⟩ := gained
  exact List.mem_map_of_mem member

/-- **A visit keeps the invariant**: what a pending step holds has come from a gain, so that every
closed family passes it on as well. -/
theorem Invariant.visit (ready : Ready start) (inv : Invariant start [] spread) (name : String) :
    Invariant start [] (spread.visit name) := by
  have distinct := inv.distinct ready
  rcases visit_cases spread name with ⟨same, _⟩ | ⟨same, absent⟩ | ⟨step, member, rfl, pending, served⟩
  · rwa [same]
  · rw [same]
    have released := inv.release name
    refine ⟨inv.frame, inv.grown, released.gained, ?_, inv.below⟩
    intro other idle _ gained
    have present : other ∈ spread.names := Gained.mem_names gained
    exact released.settled other idle (by rintro (_ | ⟨_, ⟨⟩⟩); exact absent present) gained
  · have heirs : ∀ heir, heir ∈ heirsIn start step.name ↔ heir ∈ step.transitions.flatMap Transition.heirs := by
      intro heir
      rw [← heirsIn_congr inv.frame]
      exact mem_heirsIn_name distinct member
    have done : Invariant start [step.name] (spread.visit step.name) := by
      rw [served]
      refine (inv.release step.name).serve ready fun family closed heir isHeir handler has => ?_
      obtain ⟨gain, held, fresh⟩ := inv.gained _ pending
      have grownFamily : family step.name ≠ heldIn start step.name := fun same =>
        fresh (same ▸ inv.below family closed _ held)
      exact closed.inherited _ grownFamily heir ((heirs heir).2 isHeir)
        (inv.below family closed _ ((mem_heldIn_name distinct member).2 has))
    refine ⟨done.frame, done.grown, done.gained, ?_, done.below⟩
    intro other idle _ gained heir isHeir
    by_cases same : other = step.name
    · -- the step itself: it holds what it had when its heirs were served
      subst same
      intro handler held
      have nonempty : handler ≠ "" := fun empty => done.named ready _ (empty ▸ held)
      rw [served] at held ⊢
      have released : (spread.release step.name).names.Nodup := distinct
      have has : handler ∈ step.migrations := by
        rcases (mem_heldIn_serve released).1 held with old | ⟨_, _, has, _⟩
        · exact (mem_heldIn_name distinct member).1 old
        · exact has
      have present : heir ∈ spread.names := inv.names_eq ▸ ready.heirs _ heir isHeir
      exact (mem_heldIn_serve released).2 (.inr ⟨(heirs heir).1 isHeir, present, has, nonempty⟩)
    · exact done.settled other idle (by simpa using same) gained heir isHeir

theorem Invariant.pass (ready : Ready start) (inv : Invariant start [] spread) (order : List String) :
    Invariant start [] (spread.pass order) := by
  suffices run : ∀ spread, Invariant start [] spread → Invariant start [] (order.foldl Spread.visit spread) from
    run _ ⟨inv.frame, inv.grown, inv.gained, inv.settled, inv.below⟩
  induction order with
  | nil => exact fun _ inv => inv
  | cons name order ih => exact fun spread inv => ih _ (inv.visit ready name)

/-! ## Progress -/

/-- The number of pairs of a step and a handler that it has. -/
def pairs (steps : List Step) : Nat := (steps.flatMap (·.migrations.toList)).length

/-- Nothing was given: at most some steps are no longer pending. -/
structure Quiet (before after : Spread) : Prop where
  steps : after.steps = before.steps
  changed : after.changed = before.changed
  pending : ∀ name ∈ after.pending, name ∈ before.pending

/-- Something was given, which is noted, or nothing was. -/
def Progress (before after : Spread) : Prop :=
  Quiet before after ∨ (after.changed = true ∧ pairs before.steps < pairs after.steps)

theorem Progress.refl (spread : Spread) : Progress spread spread := .inl ⟨rfl, rfl, fun _ => id⟩

theorem Progress.trans {first second third : Spread} (one : Progress first second) (two : Progress second third) :
    Progress first third := by
  rcases one with quiet | ⟨changed, more⟩
  · rcases two with quiet' | ⟨changed', more'⟩
    · exact .inl ⟨quiet'.steps.trans quiet.steps, quiet'.changed.trans quiet.changed, fun name member =>
        quiet.pending name (quiet'.pending name member)⟩
    · exact .inr ⟨changed', quiet.steps ▸ more'⟩
  · rcases two with quiet' | ⟨changed', more'⟩
    · exact .inr ⟨quiet'.changed.trans changed, quiet'.steps ▸ more⟩
    · exact .inr ⟨changed', more.trans more'⟩

theorem Progress.pairs_le {before after : Spread} (progress : Progress before after) :
    pairs before.steps ≤ pairs after.steps := by
  rcases progress with quiet | ⟨_, more⟩
  · rw [quiet.steps]
  · exact more.le

/-- Where no pair was added, nothing was given. -/
theorem Progress.quiet {before after : Spread} (progress : Progress before after)
    (noneAdded : pairs after.steps ≤ pairs before.steps) : Quiet before after := by
  rcases progress with quiet | ⟨_, more⟩
  · exact quiet
  · omega

theorem length_addMigrations_le (step : Step) (added : List String) :
    step.migrations.toList.length ≤ (step.addMigrations added).migrations.toList.length :=
  (step.migrations.nodup.subperm fun _ has => Step.mem_addMigrations.2 (.inl has)).length_le

theorem length_addMigrations_lt {step : Step} {added : List String} {handler : String} (isAdded : handler ∈ added)
    (nonempty : handler ≠ "") (fresh : handler ∉ step.migrations) :
    step.migrations.toList.length < (step.addMigrations added).migrations.toList.length := by
  have distinct : (handler :: step.migrations.toList).Nodup := List.nodup_cons.2 ⟨fresh, step.migrations.nodup⟩
  refine (distinct.subperm fun other member => ?_).length_le
  rcases List.mem_cons.1 member with rfl | has
  · exact Step.mem_addMigrations.2 (.inr ⟨isAdded, nonempty⟩)
  · exact Step.mem_addMigrations.2 (.inl has)

/-- A gift from which a step gains adds a pair. -/
theorem pairs_lt_gained {spread : Spread} {target handler : String} {given : List String}
    (present : target ∈ spread.names) (isGiven : handler ∈ given) (nonempty : handler ≠ "")
    (fresh : handler ∉ heldIn spread.steps target) : pairs spread.steps < pairs (spread.gained target given).steps := by
  unfold pairs gained
  rw [List.length_flatMap, List.length_flatMap, List.map_map]
  refine List.sum_lt_sum _ _ (fun step _ => ?_) ?_
  · simp only [Function.comp_apply]
    split
    · exact length_addMigrations_le step given
    · exact le_rfl
  · obtain ⟨step, member, rfl⟩ := List.mem_map.1 present
    refine ⟨step, member, ?_⟩
    rw [Function.comp_apply, if_pos rfl]
    exact length_addMigrations_lt isGiven nonempty fun has => fresh ⟨step, member, rfl, has⟩

theorem give_progress {spread : Spread} (distinct : spread.names.Nodup) (target : String) (given : List String) :
    Progress spread (spread.give target given) := by
  rcases give_cases distinct target given with ⟨same, _⟩ | ⟨gain, present, handler, isGiven, nonempty, fresh⟩
  · rw [same]
    exact .refl spread
  · rw [gain]
    exact .inr ⟨rfl, pairs_lt_gained present isGiven nonempty fresh⟩

theorem serve_progress (spread : Spread) (distinct : spread.names.Nodup) (step : Step) (heirs : List String) :
    Progress spread (spread.serve step heirs) := by
  unfold serve
  induction heirs generalizing spread with
  | nil => exact .refl spread
  | cons heir heirs ih => exact (give_progress distinct heir _).trans (ih _ (by rwa [names_give]))

/-- After a visit that gives nothing the visited step is not pending. -/
theorem visit_progress {spread : Spread} (distinct : spread.names.Nodup) (name : String) :
    Progress spread (spread.visit name) ∧ (Quiet spread (spread.visit name) → name ∉ (spread.visit name).pending) := by
  have released : Progress spread (spread.release name) :=
    .inl ⟨rfl, rfl, fun _ member => (List.mem_filter.1 member).1⟩
  have idle : name ∉ (spread.release name).pending := by simp [release]
  rcases visit_cases spread name with ⟨same, idle⟩ | ⟨same, _⟩ | ⟨step, _, _, _, served⟩
  · rw [same]
    exact ⟨.refl spread, fun _ => idle⟩
  · rw [same]
    exact ⟨released, fun _ => idle⟩
  · rw [served]
    have serving := serve_progress (spread.release name) distinct step (step.transitions.flatMap Transition.heirs)
    refine ⟨released.trans serving, fun quiet pending => ?_⟩
    have same : pairs ((spread.release name).serve step _).steps = pairs spread.steps := congrArg pairs quiet.steps
    exact idle ((serving.quiet same.le).pending name pending)

/-- A pass that changes nothing leaves no visited step pending; any other pass adds a pair. -/
theorem pass_progress {spread : Spread} (distinct : spread.names.Nodup) (order : List String) :
    ((spread.pass order).changed = false ∧ ∀ name ∈ order, name ∉ (spread.pass order).pending) ∨
    ((spread.pass order).changed = true ∧ pairs spread.steps < pairs (spread.pass order).steps) := by
  suffices run : ∀ spread : Spread, spread.names.Nodup →
      Progress spread (order.foldl visit spread) ∧
        (Quiet spread (order.foldl visit spread) → ∀ name ∈ order, name ∉ (order.foldl visit spread).pending) by
    obtain ⟨quiet | loud, idle⟩ := run { spread with changed := false } distinct
    · exact .inl ⟨quiet.changed, idle quiet⟩
    · exact .inr loud
  induction order with
  | nil => exact fun spread _ => ⟨.refl spread, by simp⟩
  | cons first order ih =>
    intro spread distinct
    obtain ⟨one, idle⟩ := visit_progress distinct first
    obtain ⟨rest, restIdle⟩ := ih (spread.visit first) (by rwa [names_visit])
    refine ⟨one.trans rest, fun quiet name member => ?_⟩
    -- the whole run gave nothing, so neither its first visit nor the others did
    have same : pairs (order.foldl visit (spread.visit first)).steps = pairs spread.steps := congrArg pairs quiet.steps
    have quietOne : Quiet spread (spread.visit first) := one.quiet (rest.pairs_le.trans same.le)
    have quietRest : Quiet (spread.visit first) (order.foldl visit (spread.visit first)) :=
      rest.quiet (same.le.trans one.pairs_le)
    rcases List.mem_cons.1 member with rfl | member
    · exact fun pending => idle quietOne (quietRest.pending _ pending)
    · exact restIdle quietRest name member

end

end Spread

end StepChart
