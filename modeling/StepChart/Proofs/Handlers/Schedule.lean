import Mathlib.Algebra.Group.Action.Defs
import StepChart.Proofs.Handlers.Passes

/-!
# Any order of the work

The handlers that transitions bring along may be given in any order, and each pass may visit the steps
in an order of its own. `Spread.run_least` says that enough passes always end with the least closed
family; two runs therefore end with the same steps (`eq_of_heldIn_eq`).
-/

namespace StepChart

open Text

namespace Spread

/-- Gives the handlers that transitions bring along. -/
def seed (spread : Spread) (gifts : List (String × String)) : Spread :=
  gifts.foldl (fun spread gift => spread.give gift.1 [gift.2]) spread

/-- Makes passes until nothing changes, at most `bound` of them, each in an order of its own. -/
def passesBy (order : Nat → List String) : (bound : Nat) → Spread → Spread
  | 0, spread => spread
  | bound + 1, spread =>
    let spread := pass (order 0) spread
    if spread.changed then passesBy (fun number => order (number + 1)) bound spread else spread

theorem passes_eq_passesBy (names : List String) (bound : Nat) (spread : Spread) :
    spread.passes names bound = spread.passesBy (fun _ => names) bound := by
  induction bound generalizing spread with
  | zero => rfl
  | succ bound ih => simp only [passes, passesBy, ih]

theorem bare_passesBy (order : Nat → List String) (bound : Nat) (spread : Spread) :
    (spread.passesBy order bound).bare = spread.bare := by
  induction bound generalizing order spread with
  | zero => rfl
  | succ bound ih =>
    simp only [passesBy]
    split
    · rw [ih, bare_pass]
    · exact bare_pass (order 0) spread

/-! ## Nothing is lost -/

theorem mem_heldIn_seed {spread : Spread} (distinct : spread.names.Nodup) {gifts : List (String × String)}
    {name handler : String} :
    handler ∈ heldIn (spread.seed gifts).steps name ↔ handler ∈ heldIn spread.steps name ∨
      (name, handler) ∈ gifts ∧ name ∈ spread.names ∧ handler ≠ "" := by
  unfold seed
  induction gifts generalizing spread with
  | nil => simp
  | cons gift gifts ih =>
    rw [List.foldl_cons, ih (by rwa [names_give]), mem_heldIn_give distinct, names_give, List.mem_singleton,
      List.mem_cons, Prod.ext_iff]
    constructor
    · rintro ((old | ⟨rfl, present, rfl, nonempty⟩) | ⟨member, rest⟩)
      · exact .inl old
      · exact .inr ⟨.inl ⟨rfl, rfl⟩, present, nonempty⟩
      · exact .inr ⟨.inr member, rest⟩
    · rintro (old | ⟨⟨rfl, rfl⟩ | member, present, nonempty⟩)
      · exact .inl (.inl old)
      · exact .inl (.inr ⟨rfl, present, rfl, nonempty⟩)
      · exact .inr ⟨member, present, nonempty⟩

theorem heldIn_subset_visit {spread : Spread} (distinct : spread.names.Nodup) (visited name : String) :
    heldIn spread.steps name ⊆ heldIn (spread.visit visited).steps name := by
  rcases visit_cases spread visited with ⟨same, _⟩ | ⟨same, _⟩ | ⟨step, _, _, _, served⟩
  · rw [same]
  · rw [same]
    exact subset_rfl
  · rw [served]
    have released : (spread.release visited).names.Nodup := distinct
    exact fun _ held => (mem_heldIn_serve released).2 (.inl held)

theorem heldIn_subset_pass {spread : Spread} (distinct : spread.names.Nodup) (order : List String) (name : String) :
    heldIn spread.steps name ⊆ heldIn (spread.pass order).steps name := by
  suffices run : ∀ spread : Spread, spread.names.Nodup →
      heldIn spread.steps name ⊆ heldIn (order.foldl visit spread).steps name from run { spread with changed := false } distinct
  induction order with
  | nil => exact fun _ _ => subset_rfl
  | cons visited order ih =>
    exact fun spread distinct => (heldIn_subset_visit distinct visited name).trans (ih _ (by rwa [names_visit]))

theorem heldIn_subset_passesBy {spread : Spread} (distinct : spread.names.Nodup) (order : Nat → List String)
    (bound : Nat) (name : String) : heldIn spread.steps name ⊆ heldIn (spread.passesBy order bound).steps name := by
  induction bound generalizing order spread with
  | zero => exact subset_rfl
  | succ bound ih =>
    have once := heldIn_subset_pass distinct (order 0) name
    simp only [passesBy]
    split
    · exact once.trans (ih (by rwa [names_pass]) _)
    · exact once

/-! ## The end of the passes -/

section

variable {start : List Step} {spread : Spread}

theorem Invariant.seed (ready : Ready start) (inv : Invariant start [] spread) {gifts : List (String × String)}
    (known : ∀ gift ∈ gifts, gift ∈ seedsIn start) : Invariant start [] (spread.seed gifts) := by
  unfold Spread.seed
  induction gifts generalizing spread with
  | nil => exact inv
  | cons gift gifts ih =>
    refine ih (inv.give ready fun family closed handler isGiven => ?_) fun other member =>
      known other (List.mem_cons_of_mem _ member)
    rw [List.mem_singleton.1 isGiven]
    exact closed.seeded gift (known gift List.mem_cons_self)

/-- The passes end with no step pending, or each of them has added a pair. -/
theorem Invariant.passesBy (ready : Ready start) (inv : Invariant start [] spread) (bound : Nat)
    {order : Nat → List String} (covers : ∀ number, ∀ name ∈ start.map Step.name, name ∈ order number) :
    Invariant start [] (spread.passesBy order bound) ∧
      ((∀ name, name ∉ (spread.passesBy order bound).pending) ∨
        pairs spread.steps + bound ≤ pairs (spread.passesBy order bound).steps) := by
  induction bound generalizing order spread with
  | zero => exact ⟨inv, .inr le_rfl⟩
  | succ bound ih =>
    have passed := inv.pass ready (order 0)
    rcases pass_progress (inv.distinct ready) (order 0) with ⟨quiet, idle⟩ | ⟨loud, more⟩
    · simp only [Spread.passesBy, quiet, Bool.false_eq_true, if_false]
      refine ⟨passed, .inl fun name pending => ?_⟩
      have present : name ∈ start.map Step.name := passed.names_eq ▸ (passed.gained name pending).mem_names
      exact idle name (covers 0 name present) pending
    · simp only [Spread.passesBy, loud, if_true]
      obtain ⟨rest, done | more'⟩ := ih passed fun number => covers (number + 1)
      · exact ⟨rest, .inl done⟩
      · exact ⟨rest, .inr (by omega)⟩

/-- The handlers that occur in the steps of a list. -/
def occurring (steps : List Step) : List String :=
  steps.flatMap fun step => step.migrations.toList ++ step.transitions.map (·.migration)

theorem mem_occurring_of_seed {steps : List Step} {seed : String × String} (member : seed ∈ seedsIn steps) :
    seed.2 ∈ occurring steps := by
  obtain ⟨_, step, isStep, transition, isTransition, same⟩ := exists_transition_of_seed member
  exact List.mem_flatMap.2 ⟨step, isStep, List.mem_append_right _ (List.mem_map.2 ⟨transition, isTransition, same⟩)⟩

/-- There are no more pairs than steps times handlers that they may have. -/
theorem pairs_le {steps : List Step} {handlers : List String}
    (known : ∀ step ∈ steps, ∀ handler ∈ step.migrations, handler ∈ handlers) :
    pairs steps ≤ steps.length * handlers.length := by
  have each : ∀ count ∈ steps.map (fun step => step.migrations.toList.length), count ≤ handlers.length := by
    intro count member
    obtain ⟨step, isStep, rfl⟩ := List.mem_map.1 member
    exact (step.migrations.nodup.subperm (known step isStep)).length_le
  have total := List.sum_le_card_nsmul _ _ each
  rw [List.length_map, smul_eq_mul] at total
  rwa [pairs, List.length_flatMap]

/-- There are no more pairs than steps times handlers that occur. -/
theorem Invariant.pairs_le (inv : Invariant start [] spread) :
    pairs spread.steps ≤ start.length * (occurring start).length := by
  have closed : ClosedOver start (fun _ => {handler | handler ∈ occurring start}) := by
    refine ⟨?_, fun _ => mem_occurring_of_seed, fun _ _ _ _ => subset_rfl⟩
    rintro name handler ⟨step, member, _, held⟩
    exact List.mem_flatMap.2 ⟨step, member, List.mem_append_left _ held⟩
  have size : spread.steps.length = start.length := by
    simpa [names] using congrArg List.length inv.names_eq
  rw [← size]
  exact Spread.pairs_le fun step isStep handler has => inv.below _ closed step.name ⟨step, isStep, rfl, has⟩

/-- The steps after all the work: the handlers of transitions are given, and passes are made. -/
def finish (start : List Step) (gifts : List (String × String)) (order : Nat → List String) (bound : Nat) : List Step :=
  (((Spread.mk start [] false).seed gifts).passesBy order bound).steps

/-- **Any run ends with the least closed family**, whatever the order of the gifts and of the visits. -/
theorem run_least (ready : Ready start) (targets : ∀ seed ∈ seedsIn start, seed.1 ∈ start.map Step.name)
    {gifts : List (String × String)} (same : ∀ gift, gift ∈ gifts ↔ gift ∈ seedsIn start)
    {order : Nat → List String} (covers : ∀ number, ∀ name ∈ start.map Step.name, name ∈ order number)
    {bound : Nat} (enough : start.length * (occurring start).length < bound) :
    ClosedOver start (heldIn (finish start gifts order bound)) ∧
      ∀ family, ClosedOver start family → ∀ name, heldIn (finish start gifts order bound) name ⊆ family name := by
  have distinct : (Spread.mk start [] false).names.Nodup := ready.distinct
  have seeded := (Invariant.init start).seed ready fun gift => (same gift).1
  obtain ⟨inv, done | more⟩ := seeded.passesBy ready bound covers
  · refine ⟨⟨inv.grown, ?_, ?_⟩, inv.below⟩
    · intro seed member
      refine heldIn_subset_passesBy (seeded.distinct ready) order bound seed.1 ?_
      exact (mem_heldIn_seed distinct).2 (.inr ⟨(same seed).2 member, targets seed member,
        (exists_transition_of_seed member).1⟩)
    · intro name more heir isHeir
      obtain ⟨handler, held, fresh⟩ := Set.exists_of_ssubset ((inv.grown name).ssubset_of_ne more.symm)
      exact inv.settled name (done name) List.not_mem_nil ⟨handler, held, fresh⟩ heir isHeir
  · have bounded := inv.pairs_le
    omega

end

end Spread

/-! ## What is held fixes the steps -/

/-- Sets with the same names are equal. -/
theorem Text.NameSet.ext {first second : NameSet} (same : ∀ name, name ∈ first ↔ name ∈ second) : first = second := by
  obtain ⟨names, ascending⟩ := first
  obtain ⟨others, ascending'⟩ := second
  have perm : names.Perm others :=
    (List.perm_ext_iff_of_nodup (NameSet.nodup ⟨names, ascending⟩) (NameSet.nodup ⟨others, ascending'⟩)).2 same
  congr 1
  exact perm.eq_of_pairwise (fun _ _ _ _ before after => absurd (String.lt_trans before after) (String.lt_irrefl _))
    ascending ascending'

theorem Step.eq_of_withoutHandlers {first second : Step} (bare : first.withoutHandlers = second.withoutHandlers)
    (handlers : first.migrations = second.migrations) : first = second := by
  cases first
  cases second
  simp_all [Step.withoutHandlers]

/-- Steps that differ at most in their handlers are equal if the same handlers are held. -/
theorem eq_of_heldIn_eq {first second : List Step}
    (frame : first.map Step.withoutHandlers = second.map Step.withoutHandlers)
    (distinct : (first.map Step.name).Nodup) (held : heldIn first = heldIn second) : first = second := by
  have distinct' : (second.map Step.name).Nodup := Step.map_name_congr frame ▸ distinct
  refine List.ext_getElem (by simpa using congrArg List.length frame) fun index bound bound' => ?_
  have bare : first[index].withoutHandlers = second[index].withoutHandlers := by
    have := congrArg (fun steps => steps[index]?) frame
    simpa [bound, bound'] using this
  have name : first[index].name = second[index].name := by
    rw [← Step.name_withoutHandlers, bare, Step.name_withoutHandlers]
  refine Step.eq_of_withoutHandlers bare (Text.NameSet.ext fun handler => ?_)
  rw [← mem_heldIn_name distinct (List.getElem_mem bound), ← mem_heldIn_name distinct' (List.getElem_mem bound'),
    held, name]

end StepChart
