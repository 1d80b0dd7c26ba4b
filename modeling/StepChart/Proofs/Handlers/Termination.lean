import Mathlib.Data.Finset.Card
import Mathlib.Data.Nat.Find
import Mathlib.Data.Prod.Lex
import Mathlib.Logic.Relation
import StepChart.Proofs.Handlers.Stability

/-!
# The passes come to an end

The passes are made without counting them, until one of them changes nothing. `Moment.Next` takes them apart into single
acts: a gift to one heir, a visit, the beginning of another pass. At every moment the steps are those of the machine and
their handlers are taken from a finite pool (`Moment.Sound`), so each act brings the end nearer, in the order of
`Moment.rank`: a gift from which a step gains leaves less to gain, and another pass begins only after such a gift.
`spreading_terminates` says what this means for the passes and for the machine.
-/

namespace StepChart

open Text

/-! ## The pool -/

/-- The handlers that steps have or that their transitions bring along; an empty name is none. -/
def handlerPool (steps : List Step) : Finset String :=
  (steps.flatMap fun step =>
    step.migrations.toList ++ (step.transitions.map (·.migration)).filter (· ≠ "")).toFinset

theorem mem_handlerPool {steps : List Step} {handler : String} :
    handler ∈ handlerPool steps ↔ ∃ step ∈ steps, handler ∈ step.migrations ∨
      handler ≠ "" ∧ ∃ transition ∈ step.transitions, transition.migration = handler := by
  simp only [handlerPool, List.mem_toFinset, List.mem_flatMap, List.mem_append, List.mem_filter, List.mem_map,
    decide_eq_true_eq]
  refine exists_congr fun step => and_congr_right fun _ => or_congr_right ?_
  exact and_comm

/-- The pool has no more handlers than occur. -/
theorem card_handlerPool_le (steps : List Step) : (handlerPool steps).card ≤ (Spread.occurring steps).length := by
  refine (Finset.card_le_card fun handler inPool => ?_).trans (List.toFinset_card_le (Spread.occurring steps))
  obtain ⟨step, isStep, has | ⟨-, transition, isTransition, brings⟩⟩ := mem_handlerPool.1 inPool
  · exact List.mem_toFinset.2 (List.mem_flatMap.2 ⟨step, isStep, List.mem_append_left _ has⟩)
  · exact List.mem_toFinset.2 (List.mem_flatMap.2 ⟨step, isStep, List.mem_append_right _
      (List.mem_map.2 ⟨transition, isTransition, brings⟩)⟩)

namespace Spread

variable {start : List Step} {spread : Spread}

/-- The steps are those of the start, their handlers are from the pool, and only steps are pending. -/
structure Pooled (start : List Step) (spread : Spread) : Prop where
  frame : spread.bare = start.map Step.withoutHandlers
  pooled : ∀ name, ∀ handler ∈ heldIn spread.steps name, handler ∈ handlerPool start
  known : ∀ name ∈ spread.pending, name ∈ start.map Step.name

theorem Pooled.init (start : List Step) : Pooled start ⟨start, [], false⟩ where
  frame := rfl
  pooled := by
    rintro name handler ⟨step, isStep, -, has⟩
    exact mem_handlerPool.2 ⟨step, isStep, .inl has⟩
  known := List.forall_mem_nil _

theorem Pooled.names_eq (inPool : Pooled start spread) : spread.names = start.map Step.name :=
  Step.map_name_congr inPool.frame

theorem Pooled.mem_pool (inPool : Pooled start spread) {step : Step} (isStep : step ∈ spread.steps) {handler : String}
    (has : handler ∈ step.migrations) : handler ∈ handlerPool start :=
  inPool.pooled step.name handler ⟨step, isStep, rfl, has⟩

theorem Pooled.pairs_le (inPool : Pooled start spread) :
    pairs spread.steps ≤ start.length * (handlerPool start).card := by
  have size : spread.steps.length = start.length := by
    simpa [names] using congrArg List.length inPool.names_eq
  rw [← size, ← Finset.length_toList]
  exact Spread.pairs_le fun step isStep handler has => Finset.mem_toList.2 (inPool.mem_pool isStep has)

/-- A gift from the pool leaves all handlers in the pool. -/
theorem Pooled.give (distinct : (start.map Step.name).Nodup) (inPool : Pooled start spread) (target : String)
    {given : List String} (givenInPool : ∀ handler ∈ given, handler ∈ handlerPool start) :
    Pooled start (spread.give target given) := by
  rw [← inPool.names_eq] at distinct
  refine ⟨(bare_give ..).trans inPool.frame, fun name handler held => ?_, fun name pending => ?_⟩
  · rcases (mem_heldIn_give distinct).1 held with old | ⟨-, -, isGiven, -⟩
    · exact inPool.pooled name handler old
    · exact givenInPool handler isGiven
  · rcases pending_give distinct pending with old | ⟨rfl, present, -⟩
    · exact inPool.known name old
    · exact inPool.names_eq ▸ present

theorem Pooled.seed (distinct : (start.map Step.name).Nodup) (inPool : Pooled start spread)
    {gifts : List (String × String)} (known : ∀ gift ∈ gifts, gift ∈ seedsIn start) :
    Pooled start (spread.seed gifts) := by
  unfold Spread.seed
  induction gifts generalizing spread with
  | nil => exact inPool
  | cons gift gifts ih =>
    refine ih (inPool.give distinct gift.1 fun handler isGiven => ?_) fun other member =>
      known other (List.mem_cons_of_mem _ member)
    obtain ⟨nonempty, step, isStep, brings⟩ := exists_transition_of_seed (known gift List.mem_cons_self)
    rw [List.mem_singleton.1 isGiven]
    exact mem_handlerPool.2 ⟨step, isStep, .inr ⟨nonempty, brings⟩⟩

/-! ## Single acts -/

/-- Where the passes stand. -/
structure Moment where
  spread : Spread
  /-- The handlers that the visited step passes on. -/
  given : List String
  /-- The steps that it has still to give them to. -/
  heirs : List String
  /-- The steps that are still to be visited in this pass. -/
  visits : List String

/-- The beginning of a pass. -/
def begin (names : List String) (spread : Spread) (given : List String) : Moment :=
  ⟨{ spread with changed := false }, given, [], names⟩

namespace Moment

/-- One act after the other: what the visited step has goes to its heirs, then the next step is visited if it is pending,
and after a pass that has changed something another one begins. -/
inductive Next (names : List String) : Moment → Moment → Prop
  | give {spread : Spread} {given heirs visits : List String} {heir : String} :
    Next names ⟨spread, given, heir :: heirs, visits⟩ ⟨spread.give heir given, given, heirs, visits⟩
  | skip {spread : Spread} {given visits : List String} {name : String} (idle : name ∉ spread.pending) :
    Next names ⟨spread, given, [], name :: visits⟩ ⟨spread, given, [], visits⟩
  | visit {spread : Spread} {given visits : List String} {name : String} {step : Step} (pending : name ∈ spread.pending)
    (found : spread.steps.find? (·.name == name) = some step) :
    Next names ⟨spread, given, [], name :: visits⟩
      ⟨spread.release name, step.migrations.toList, step.transitions.flatMap Transition.heirs, visits⟩
  | again {spread : Spread} {given : List String} (changed : spread.changed = true) :
    Next names ⟨spread, given, [], []⟩ (begin names spread given)

/-- A pass is over that has changed nothing. -/
def Done (moment : Moment) : Prop := moment.heirs = [] ∧ moment.visits = [] ∧ moment.spread.changed = false

/-- What holds at every moment. -/
structure Sound (start : List Step) (moment : Moment) : Prop where
  inPool : Pooled start moment.spread
  givenInPool : ∀ handler ∈ moment.given, handler ∈ handlerPool start

variable {names : List String} {moment before after : Moment}

theorem Sound.begin (inPool : Pooled start spread) (names : List String) {given : List String}
    (givenInPool : ∀ handler ∈ given, handler ∈ handlerPool start) : (spread.begin names given).Sound start :=
  ⟨⟨inPool.frame, inPool.pooled, inPool.known⟩, givenInPool⟩

/-- **Every act keeps the handlers in the pool and the names as they are.** -/
theorem Sound.next (distinct : (start.map Step.name).Nodup) (sound : before.Sound start) (next : Next names before after) :
    after.Sound start := by
  obtain ⟨inPool, givenInPool⟩ := sound
  cases next with
  | give => exact ⟨inPool.give distinct _ givenInPool, givenInPool⟩
  | skip => exact ⟨inPool, givenInPool⟩
  | visit pending found =>
    refine ⟨⟨inPool.frame, inPool.pooled, fun name member => ?_⟩, fun handler has => ?_⟩
    · exact inPool.known name (List.mem_filter.1 member).1
    · exact inPool.mem_pool (List.mem_of_find?_eq_some found) has
  | again => exact .begin inPool names givenInPool

theorem Sound.reaches (distinct : (start.map Step.name).Nodup) (sound : before.Sound start)
    (reaches : Relation.ReflTransGen (Next names) before after) : after.Sound start := by
  induction reaches with
  | refl => exact sound
  | tail _ next ih => exact ih.next distinct next

/-! ## Each act brings the end nearer -/

/-- How far the end is: first what can still be gained, then whether another pass is due, then the visits and the gifts
that are left. -/
def rank (start : List Step) (moment : Moment) : ℕ ×ₗ ℕ ×ₗ ℕ ×ₗ ℕ :=
  toLex (start.length * (handlerPool start).card - pairs moment.spread.steps,
    toLex (moment.spread.changed.toNat, toLex (moment.visits.length, moment.heirs.length)))

theorem rank_lt (distinct : (start.map Step.name).Nodup) (sound : before.Sound start) (next : Next names before after) :
    after.rank start < before.rank start := by
  have bounded := (sound.next distinct next).inPool.pairs_le
  obtain ⟨inPool, -⟩ := sound
  simp only [rank, Prod.Lex.toLex_lt_toLex]
  cases next with
  | @give spread given heirs visits heir =>
    rw [← inPool.names_eq] at distinct
    rcases give_progress distinct heir given with quiet | ⟨-, more⟩
    · right
      simp [quiet.steps, quiet.changed]
    · exact .inl (Nat.sub_lt_sub_left (more.trans_le bounded) more)
  | skip => simp
  | visit => simp [release]
  | again changed => simp [begin, changed]

/-- **The acts come to an end**, in whatever sound moment they begin. -/
theorem Sound.acc (distinct : (start.map Step.name).Nodup) (sound : moment.Sound start) :
    Acc (fun after before => Next names before after) moment := by
  induction ranked : moment.rank start using WellFoundedLT.induction generalizing moment with
  | ind rank ih =>
    subst ranked
    exact ⟨moment, fun after next => ih _ (rank_lt distinct sound next) (sound.next distinct next) rfl⟩

/-- As long as a moment is not the last, there is something to do. -/
theorem Sound.done_or_next (names : List String) (sound : moment.Sound start) :
    moment.Done ∨ ∃ after, Next names moment after := by
  obtain ⟨spread, given, heirs, visits⟩ := moment
  cases heirs with
  | cons heir heirs => exact .inr ⟨_, .give⟩
  | nil =>
    cases visits with
    | cons name visits =>
      by_cases pending : name ∈ spread.pending
      · have present : name ∈ spread.names := sound.inPool.names_eq ▸ sound.inPool.known name pending
        obtain ⟨step, isStep, isName⟩ := List.mem_map.1 present
        obtain ⟨found, isFound⟩ := Option.isSome_iff_exists.1
          (List.find?_isSome (p := (·.name == name)).2 ⟨step, isStep, by simpa using isName⟩)
        exact .inr ⟨_, .visit pending isFound⟩
      · exact .inr ⟨_, .skip pending⟩
    | nil =>
      cases changed : spread.changed with
      | true => exact .inr ⟨_, .again changed⟩
      | false => exact .inl ⟨rfl, rfl, changed⟩

/-- There is never a choice of what to do. -/
theorem Next.unique : Relator.RightUnique (Next names) := by
  intro before first second one two
  cases one with
  | give =>
    cases two
    rfl
  | skip idle =>
    cases two with
    | skip => rfl
    | visit pending => exact absurd pending idle
  | visit pending found =>
    cases two with
    | skip idle => exact absurd pending idle
    | visit _ foundToo =>
      obtain rfl := Option.some.inj (found.symm.trans foundToo)
      rfl
  | again =>
    cases two
    rfl

theorem Done.not_next (done : before.Done) : ¬ Next names before after := by
  intro next
  obtain ⟨noHeirs, noVisits, unchanged⟩ := done
  cases next with
  | give => cases noHeirs
  | skip => cases noVisits
  | visit => cases noVisits
  | again changed => exact Bool.false_ne_true (unchanged.symm.trans changed)

/-- All ways lead to the same last moment. -/
theorem Done.eq_of_reaches {first second : Moment} (firstDone : first.Done) (secondDone : second.Done)
    (one : Relation.ReflTransGen (Next names) moment first) (two : Relation.ReflTransGen (Next names) moment second) :
    first = second := by
  have last : ∀ {here there : Moment}, here.Done → Relation.ReflTransGen (Next names) here there → there = here := by
    intro here there done reaches
    rcases reaches.cases_head with same | ⟨_, next, -⟩
    · exact same.symm
    · exact absurd next done.not_next
  rcases Relation.ReflTransGen.total_of_right_unique Next.unique one two with onward | onward
  · exact (last firstDone onward).symm
  · exact last secondDone onward

/-! ## A pass is made of acts -/

theorem reaches_serve (step : Step) (heirs visits : List String) (spread : Spread) :
    Relation.ReflTransGen (Next names) ⟨spread, step.migrations.toList, heirs, visits⟩
      ⟨spread.serve step heirs, step.migrations.toList, [], visits⟩ := by
  induction heirs generalizing spread with
  | nil => exact .refl
  | cons heir heirs ih => exact .head .give (ih _)

theorem reaches_visit (names : List String) (distinct : (start.map Step.name).Nodup) {name : String}
    {given visits : List String} (sound : Sound start ⟨spread, given, [], name :: visits⟩) :
    ∃ last, Relation.ReflTransGen (Next names) ⟨spread, given, [], name :: visits⟩
      ⟨spread.visit name, last, [], visits⟩ := by
  by_cases pending : name ∈ spread.pending
  · rcases visit_cases spread name with ⟨-, idle⟩ | ⟨-, absent⟩ | ⟨step, isStep, rfl, -, served⟩
    · exact absurd pending idle
    · exact absurd (sound.inPool.names_eq ▸ sound.inPool.known name pending) absent
    · have distinctNow : spread.names.Nodup := sound.inPool.names_eq ▸ distinct
      have found : spread.steps.find? (·.name == step.name) = some step := find?_name_eq_some distinctNow isStep
      rw [served]
      exact ⟨_, .head (.visit pending found) (reaches_serve step _ visits _)⟩
  · have idle : spread.visit name = spread := by
      unfold Spread.visit
      rw [if_neg (by simpa using pending)]
    rw [idle]
    exact ⟨given, .single (.skip pending)⟩

theorem reaches_visits (distinct : (start.map Step.name).Nodup) (visits : List String) {spread : Spread}
    {given : List String} (sound : Sound start ⟨spread, given, [], visits⟩) :
    ∃ last, Relation.ReflTransGen (Next names) ⟨spread, given, [], visits⟩ ⟨visits.foldl visit spread, last, [], []⟩ := by
  induction visits generalizing spread given with
  | nil => exact ⟨given, .refl⟩
  | cons name visits ih =>
    obtain ⟨middle, first⟩ := reaches_visit names distinct sound
    obtain ⟨last, rest⟩ := ih (sound.reaches distinct first)
    exact ⟨last, first.trans rest⟩

end Moment

open Moment in
/-- The acts of a pass lead from its beginning to its end. -/
theorem Pooled.reaches_pass (distinct : (start.map Step.name).Nodup) (inPool : Pooled start spread) (names : List String)
    {given : List String} (givenInPool : ∀ handler ∈ given, handler ∈ handlerPool start) :
    ∃ last, Relation.ReflTransGen (Next names) (spread.begin names given) ⟨spread.pass names, last, [], []⟩ :=
  reaches_visits distinct names (.begin inPool names givenInPool)

/-! ## Counting the passes -/

theorem Pooled.pass (distinct : (start.map Step.name).Nodup) (inPool : Pooled start spread) (names : List String) :
    Pooled start (spread.pass names) := by
  obtain ⟨last, reaches⟩ := inPool.reaches_pass distinct names (List.forall_mem_nil _)
  exact ((Moment.Sound.begin inPool names (List.forall_mem_nil _)).reaches distinct reaches).inPool

theorem Pooled.iterate (distinct : (start.map Step.name).Nodup) (inPool : Pooled start spread) (names : List String)
    (number : Nat) : Pooled start ((Spread.pass names)^[number] spread) := by
  induction number with
  | zero => exact inPool
  | succ number ih =>
    rw [Function.iterate_succ_apply']
    exact ih.pass distinct names

/-- A pass over all steps adds a pair, or changes nothing and leaves no step pending. -/
theorem Pooled.pass_progress (distinct : (start.map Step.name).Nodup) (inPool : Pooled start spread) {names : List String}
    (covers : ∀ name ∈ start.map Step.name, name ∈ names) :
    ((spread.pass names).changed = true → pairs spread.steps < pairs (spread.pass names).steps) ∧
      ((spread.pass names).changed = false → (spread.pass names).pending = []) := by
  have distinctNow : spread.names.Nodup := inPool.names_eq ▸ distinct
  rcases Spread.pass_progress distinctNow names with ⟨quiet, idle⟩ | ⟨loud, more⟩
  · refine ⟨fun loud => absurd (quiet.symm.trans loud) Bool.false_ne_true, fun _ => ?_⟩
    refine List.eq_nil_iff_forall_not_mem.2 fun name pending => ?_
    exact idle name (covers name ((inPool.pass distinct names).known name pending)) pending
  · exact ⟨fun _ => more, fun quiet => absurd (quiet.symm.trans loud) Bool.false_ne_true⟩

/-- Where the first passes all change something, each has added a pair. -/
theorem pairs_iterate {names : List String} (count : Nat)
    (more : ∀ number, ((pass names)^[number + 1] spread).changed = true →
      pairs ((pass names)^[number] spread).steps < pairs ((pass names)^[number + 1] spread).steps)
    (changing : ∀ number < count, ((pass names)^[number + 1] spread).changed = true) :
    pairs spread.steps + count ≤ pairs ((pass names)^[count] spread).steps := by
  induction count with
  | zero => exact le_rfl
  | succ count ih =>
    have before := ih fun number isBefore => changing number (isBefore.trans (Nat.lt_succ_self _))
    have added := more count (changing count (Nat.lt_succ_self _))
    omega

/-- Passes that are not counted out end with the first that changes nothing. -/
theorem passes_eq_iterate {names : List String} {count bound : Nat} (enough : count < bound)
    (changing : ∀ number < count, ((pass names)^[number + 1] spread).changed = true)
    (quiet : ((pass names)^[count + 1] spread).changed = false) :
    spread.passes names bound = (pass names)^[count + 1] spread := by
  induction bound generalizing spread count with
  | zero => exact absurd enough (Nat.not_lt_zero _)
  | succ bound ih =>
    rw [passes]
    cases count with
    | zero => exact if_neg (Bool.eq_false_iff.1 quiet)
    | succ count =>
      have first : (spread.pass names).changed = true := changing 0 (Nat.succ_pos _)
      rw [if_pos first]
      exact ih (Nat.lt_of_succ_lt_succ enough) (fun number isBefore => changing (number + 1) (Nat.succ_lt_succ isBefore)) quiet

end Spread

/-! ## Machines -/

namespace Machine

open Spread

variable (machine : Machine)

/-- The handlers that the steps of a machine have or that their transitions bring along. -/
def pool : Finset String := handlerPool machine.steps

/-- The state after the handlers of transitions have been given and a number of passes made. -/
def passed (number : Nat) : Spread :=
  (Spread.pass machine.names)^[number] (machine.unspread.seed (seedsIn machine.resolveAll.steps))

/-- The moment at which the first pass begins. -/
def firstMoment : Moment := (machine.passed 0).begin machine.names []

theorem handlerPool_resolveAll : handlerPool machine.resolveAll.steps = machine.pool := by
  ext handler
  simp only [pool, mem_handlerPool]
  constructor
  · rintro ⟨_, isResolved, has⟩
    obtain ⟨step, isStep, rfl⟩ := mem_resolveAll_iff.1 isResolved
    refine ⟨step, isStep, has.imp_right fun ⟨nonempty, _, isTransition, brings⟩ => ⟨nonempty, ?_⟩⟩
    obtain ⟨transition, isOriginal, rfl⟩ := List.mem_map.1 isTransition
    exact ⟨transition, isOriginal, brings⟩
  · rintro ⟨step, isStep, has⟩
    refine ⟨machine.resolveStep step, mem_resolveAll isStep, has.imp_right fun ⟨nonempty, transition, isTransition, brings⟩ =>
      ⟨nonempty, machine.resolve transition, List.mem_map_of_mem isTransition, brings⟩⟩

theorem size_resolveAll : machine.resolveAll.steps.length = machine.size := List.length_map _

theorem pooled_passed (number : Nat) : Pooled machine.resolveAll.steps (machine.passed number) :=
  ((Pooled.init _).seed machine.resolveAll.names_nodup fun _ => id).iterate machine.resolveAll.names_nodup _ number

theorem passed_succ (number : Nat) : machine.passed (number + 1) = (machine.passed number).pass machine.names :=
  Function.iterate_succ_apply' _ _ _

theorem passed_progress (number : Nat) :
    ((machine.passed (number + 1)).changed = true →
      pairs (machine.passed number).steps < pairs (machine.passed (number + 1)).steps) ∧
    ((machine.passed (number + 1)).changed = false → (machine.passed (number + 1)).pending = []) := by
  rw [passed_succ]
  refine (machine.pooled_passed number).pass_progress machine.resolveAll.names_nodup fun name member => ?_
  rw [← names_resolveAll]
  exact member

theorem pairs_passed_le (number : Nat) : pairs (machine.passed number).steps ≤ machine.size * machine.pool.card := by
  rw [← handlerPool_resolveAll, ← size_resolveAll]
  exact (machine.pooled_passed number).pairs_le

/-- No more passes change something than there can be pairs. -/
theorem le_of_changing {count : Nat} (changing : ∀ number < count, (machine.passed (number + 1)).changed = true) :
    count ≤ machine.size * machine.pool.card := by
  have added := pairs_iterate count (fun number => (machine.passed_progress number).1) changing
  exact ((Nat.le_add_left _ _).trans added).trans (machine.pairs_passed_le count)

/-- The first pass that changes nothing is the last. -/
theorem propagate_steps_eq {count : Nat} (changing : ∀ number < count, (machine.passed (number + 1)).changed = true)
    (quiet : (machine.passed (count + 1)).changed = false) :
    machine.propagate.steps = (machine.passed (count + 1)).steps := by
  have enough : count < machine.resolveAll.passBound := by
    rw [passBound_eq, size_resolveAll]
    have occurring := card_handlerPool_le machine.resolveAll.steps
    rw [handlerPool_resolveAll] at occurring
    exact Nat.lt_succ_of_le ((machine.le_of_changing changing).trans (Nat.mul_le_mul_left _ occurring))
  rw [propagate_steps, names_resolveAll, passes_eq_iterate enough changing quiet]
  rfl

/-- There is a first pass that changes nothing. -/
theorem exists_last_pass : ∃ count, (∀ number < count, (machine.passed (number + 1)).changed = true) ∧
    (machine.passed (count + 1)).changed = false := by
  have quiet : ∃ count, (machine.passed (count + 1)).changed = false := by
    by_contra never
    have changing : ∀ number, (machine.passed (number + 1)).changed = true := by simpa using never
    exact absurd (machine.le_of_changing fun number _ => changing number) (Nat.not_succ_le_self _)
  exact ⟨Nat.find quiet, fun number isBefore => by simpa using Nat.find_min quiet isBefore, Nat.find_spec quiet⟩

/-- The moments that come one after the other while handlers are passed on. -/
def Meets (moment : Moment) : Prop := Relation.ReflTransGen (Moment.Next machine.names) machine.firstMoment moment

theorem sound_firstMoment : machine.firstMoment.Sound machine.resolveAll.steps :=
  .begin (machine.pooled_passed 0) machine.names (List.forall_mem_nil _)

/-- The acts of a pass lead from its beginning to its end. -/
theorem reaches_passed_succ (number : Nat) {given : List String}
    (givenInPool : ∀ handler ∈ given, handler ∈ handlerPool machine.resolveAll.steps) :
    ∃ last, Relation.ReflTransGen (Moment.Next machine.names) ((machine.passed number).begin machine.names given)
      ⟨machine.passed (number + 1), last, [], []⟩ := by
  rw [passed_succ]
  exact (machine.pooled_passed number).reaches_pass machine.resolveAll.names_nodup machine.names givenInPool

/-- The acts lead from one pass to the next as long as something changes. -/
theorem exists_meets_passed {count : Nat} (changing : ∀ number < count, (machine.passed (number + 1)).changed = true) :
    ∃ last, machine.Meets ⟨machine.passed (count + 1), last, [], []⟩ := by
  induction count with
  | zero => exact machine.reaches_passed_succ 0 (List.forall_mem_nil _)
  | succ count ih =>
    obtain ⟨given, meets⟩ := ih fun number isBefore => changing number (isBefore.trans (Nat.lt_succ_self _))
    have sound := machine.sound_firstMoment.reaches machine.resolveAll.names_nodup meets
    obtain ⟨last, reaches⟩ := machine.reaches_passed_succ (count + 1) sound.givenInPool
    exact ⟨last, meets.trans (.head (.again (changing count (Nat.lt_succ_self _))) reaches)⟩

/-- **Passing handlers on comes to an end** in every machine. There are no more passes that change something than there
can be pairs of a step and a handler, and propagation ends with the first pass that changes nothing. Every pass that
changes something adds a pair, every other one leaves no step pending, and each is made of single acts. The acts
themselves cannot go on for ever: at every moment the steps have the names they had at first, and only handlers that some
step had at first or that some transition brings along, so that there are never more pairs than steps times such handlers;
unless it is over there is something to do, and when it is over, propagation is done. -/
theorem spreading_terminates :
    (∃ count ≤ machine.size * machine.pool.card,
      (∀ number < count, (machine.passed (number + 1)).changed = true) ∧
      (machine.passed (count + 1)).changed = false ∧ machine.propagate.steps = (machine.passed (count + 1)).steps ∧
      ∀ number ≤ count, ∃ last, machine.Meets ⟨machine.passed (number + 1), last, [], []⟩) ∧
    (∀ number,
      ((machine.passed (number + 1)).changed = true →
        pairs (machine.passed number).steps < pairs (machine.passed (number + 1)).steps) ∧
      ((machine.passed (number + 1)).changed = false → (machine.passed (number + 1)).pending = [])) ∧
    Acc (fun after before => Moment.Next machine.names before after) machine.firstMoment ∧
    ∀ moment, machine.Meets moment →
      moment.spread.names = machine.names ∧
      (∀ step ∈ moment.spread.steps, ∀ handler ∈ step.migrations, handler ∈ machine.pool) ∧
      pairs moment.spread.steps ≤ machine.size * machine.pool.card ∧
      (moment.Done ∨ ∃ after, Moment.Next machine.names moment after) ∧
      (moment.Done → moment.spread.steps = machine.propagate.steps) := by
  obtain ⟨count, changing, quiet⟩ := machine.exists_last_pass
  have distinct := machine.resolveAll.names_nodup
  have atEnd := machine.propagate_steps_eq changing quiet
  refine ⟨⟨count, machine.le_of_changing changing, changing, quiet, atEnd, fun number isBefore => ?_⟩,
    machine.passed_progress, machine.sound_firstMoment.acc distinct, fun moment meets => ?_⟩
  · exact machine.exists_meets_passed fun earlier isEarlier => changing earlier (isEarlier.trans_le isBefore)
  · have sound := machine.sound_firstMoment.reaches distinct meets
    refine ⟨sound.inPool.names_eq.trans names_resolveAll, fun step isStep handler has => ?_, ?_,
      sound.done_or_next machine.names, fun done => ?_⟩
    · rw [← handlerPool_resolveAll]
      exact sound.inPool.mem_pool isStep has
    · rw [← handlerPool_resolveAll, ← size_resolveAll]
      exact sound.inPool.pairs_le
    · obtain ⟨last, meetsLast⟩ := machine.exists_meets_passed changing
      have lastDone : Moment.Done ⟨machine.passed (count + 1), last, [], []⟩ := ⟨rfl, rfl, quiet⟩
      rw [atEnd, done.eq_of_reaches lastDone meets meetsLast]

end Machine

end StepChart
