import StepChart.Proofs.Handlers.Gift
import StepChart.Proofs.Step.Transitions

/-!
# The repeat of a step

Whatever transitions a new step is given, in whatever order and with whatever limits, it has them all but for the
repeats after the first, which are folded into that one. `Collected` says so exactly, each transition that is added
keeps it (`Collected.addTransition`), and `repeats_folded` reads off it where the repeat stands, what is left of the
others, and which handlers the step has.
-/

namespace StepChart

/-! ## Folding -/

/-- The second transition is the first one but for the condition and the operation. -/
def Transition.SameWay (first second : Transition) : Prop :=
  ∃ condition operation, second = { first with condition, operation }

namespace Transition.SameWay

variable {first second : Transition}

theorem refl (transition : Transition) : transition.SameWay transition :=
  ⟨transition.condition, transition.operation, rfl⟩

theorem isRepeat (same : first.SameWay second) : first.isRepeat = second.isRepeat := by
  obtain ⟨condition, operation, rfl⟩ := same
  rfl

theorem inherits (same : first.SameWay second) : second.inherits = first.inherits := by
  obtain ⟨condition, operation, rfl⟩ := same
  rfl

theorem fold (same : first.SameWay second) (limit : Nat) (more : Transition) :
    first.SameWay (second.fold limit more) := by
  obtain ⟨condition, operation, rfl⟩ := same
  exact ⟨_, _, rfl⟩

end Transition.SameWay

/-- A repeat with the repeats of some calls folded into it, each with the limit of its call. -/
def Transition.foldAll (first : Transition) (calls : List (Nat × Transition)) : Transition :=
  (calls.filter (·.2.isRepeat)).foldl (fun merged call => merged.fold call.1 call.2) first

namespace Transition

theorem foldAll_concat (first : Transition) (calls : List (Nat × Transition)) (limit : Nat) (more : Transition) :
    first.foldAll (calls ++ [(limit, more)]) =
      if more.isRepeat then (first.foldAll calls).fold limit more else first.foldAll calls := by
  unfold foldAll
  rw [List.filter_append, List.foldl_append]
  cases isRepeat : more.isRepeat <;> simp [isRepeat]

/-- What each fold keeps holds in the end. -/
theorem foldAll_induction {every : Transition → Prop} {calls : List (Nat × Transition)}
    (folds : ∀ call ∈ calls, ∀ merged, every merged → every (merged.fold call.1 call.2)) {first : Transition}
    (holds : every first) : every (first.foldAll calls) := by
  unfold foldAll
  have foldsRepeats : ∀ call ∈ calls.filter (·.2.isRepeat), ∀ merged, every merged → every (merged.fold call.1 call.2) :=
    fun call member => folds call (List.mem_of_mem_filter member)
  generalize calls.filter (·.2.isRepeat) = repeats at foldsRepeats
  induction repeats generalizing first with
  | nil => exact holds
  | cons call repeats ih =>
    obtain ⟨here, later⟩ := List.forall_mem_cons.1 foldsRepeats
    exact ih (here first holds) later

/-- Folding changes nothing but the condition and the operation. -/
theorem sameWay_foldAll (first : Transition) (calls : List (Nat × Transition)) : first.SameWay (first.foldAll calls) :=
  foldAll_induction (fun call _ _ same => same.fold call.1 call.2) (.refl first)

@[simp] theorem isRepeat_foldAll (first : Transition) (calls : List (Nat × Transition)) :
    (first.foldAll calls).isRepeat = first.isRepeat :=
  (first.sameWay_foldAll calls).isRepeat.symm

end Transition

/-- All transitions lead on. -/
def Onward (transitions : List Transition) : Prop := ∀ transition ∈ transitions, transition.isRepeat = false

theorem Onward.filter_eq_nil {transitions : List Transition} (onward : Onward transitions) :
    transitions.filter (·.isRepeat) = [] :=
  List.filter_eq_nil_iff.2 fun transition member => by simp [onward transition member]

theorem Onward.filter_eq_self {transitions : List Transition} (onward : Onward transitions) :
    transitions.filter (!·.isRepeat) = transitions :=
  List.filter_eq_self.2 fun transition member => by simp [onward transition member]

theorem onward_filter (transitions : List Transition) : Onward (transitions.filter (!·.isRepeat)) := by
  simp [Onward]

/-! ## Collecting transitions -/

/-- The element after the first ones is the one that is changed. -/
theorem modify_length_append {α : Type} (before : List α) (a : α) (after : List α) (change : α → α) :
    (before ++ a :: after).modify before.length change = before ++ change a :: after := by
  induction before with
  | nil => rfl
  | cons first before ih => rw [List.cons_append, List.length_cons, List.modify_succ_cons, ih, List.cons_append]

namespace Step

/-- Adds transitions one after the other, each with the limit of its own call. -/
def addTransitions (step : Step) (calls : List (Nat × Transition)) : Step :=
  calls.foldl (fun step call => step.addTransition call.1 call.2) step

/-- What a new step has after some calls: all transitions if none of them is a repeat, and no place for one; else the
first repeat at its place with the others folded into it, and the other transitions before and after it. -/
inductive Collected : List (Nat × Transition) → Step → Prop
  | onward {calls : List (Nat × Transition)} {step : Step} (onward : Onward (calls.map Prod.snd))
      (transitions : step.transitions = calls.map Prod.snd) (place : step.repeatIndex? = none) : Collected calls step
  | folded {before after : List (Nat × Transition)} {limit : Nat} {first : Transition} {step : Step}
      (onward : Onward (before.map Prod.snd)) (isRepeat : first.isRepeat = true)
      (transitions : step.transitions =
        before.map Prod.snd ++ first.foldAll after :: (after.map Prod.snd).filter (!·.isRepeat))
      (place : step.repeatIndex? = some before.length) : Collected (before ++ (limit, first) :: after) step

theorem Collected.new {step : Step} (noTransitions : step.transitions = []) (noPlace : step.repeatIndex? = none) :
    Collected [] step :=
  .onward (List.forall_mem_nil _) noTransitions noPlace

/-- One more transition is collected. -/
theorem Collected.addTransition {calls : List (Nat × Transition)} {step : Step} (collected : Collected calls step)
    (limit : Nat) (transition : Transition) :
    Collected (calls ++ [(limit, transition)]) (step.addTransition limit transition) := by
  have added := step.transitions_addTransition limit transition
  have placed := step.repeatIndex?_addTransition limit transition
  cases collected with
  | onward onward transitions place =>
    rw [transitions, place] at added placed
    cases isRepeat : transition.isRepeat with
    | false =>
      rw [isRepeat] at added placed
      refine .onward ?_ ?_ placed
      · rw [List.map_append]
        exact List.forall_mem_append.2 ⟨onward, List.forall_mem_singleton.2 isRepeat⟩
      · rw [added, List.map_append]
        rfl
    | true =>
      rw [isRepeat] at added placed
      refine .folded onward isRepeat added ?_
      rw [placed]
      simp
  | @folded before after firstLimit first _ onward firstRepeats transitions place =>
    rw [transitions, place] at added placed
    rw [List.append_assoc, List.cons_append]
    cases isRepeat : transition.isRepeat with
    | false =>
      rw [isRepeat] at added placed
      refine .folded onward firstRepeats ?_ placed
      rw [added, Transition.foldAll_concat, isRepeat, List.map_append, List.filter_append]
      simp [isRepeat]
    | true =>
      rw [isRepeat] at added placed
      refine .folded onward firstRepeats ?_ placed
      have modified := modify_length_append (before.map Prod.snd) (first.foldAll after)
        ((after.map Prod.snd).filter (!·.isRepeat)) (·.fold limit transition)
      rw [List.length_map] at modified
      dsimp only at added
      rw [added, modified, Transition.foldAll_concat, isRepeat, List.map_append, List.filter_append]
      simp [isRepeat]

/-- **A new step collects the transitions it is given.** -/
theorem collected_addTransitions {step : Step} (noTransitions : step.transitions = [])
    (noPlace : step.repeatIndex? = none) (calls : List (Nat × Transition)) :
    Collected calls (step.addTransitions calls) := by
  suffices run : ∀ (more earlier : List (Nat × Transition)) (step : Step), Collected earlier step →
      Collected (earlier ++ more) (step.addTransitions more) from
    run calls [] step (.new noTransitions noPlace)
  intro more
  induction more with
  | nil =>
    intro earlier step collected
    rwa [List.append_nil]
  | cons call more ih =>
    intro earlier step collected
    rw [List.append_cons]
    exact ih _ _ (collected.addTransition call.1 call.2)

/-- The handlers of a step are those it had and those of the repeats it is given. -/
theorem mem_migrations_addTransitions {step : Step} {calls : List (Nat × Transition)} {handler : String} :
    handler ∈ (step.addTransitions calls).migrations ↔ handler ∈ step.migrations ∨
      handler ≠ "" ∧ ∃ transition ∈ calls.map Prod.snd, transition.isRepeat = true ∧ transition.migration = handler := by
  unfold addTransitions
  induction calls generalizing step with
  | nil => simp
  | cons call calls ih =>
    rw [List.foldl_cons, ih, migrations_addTransition, List.map_cons]
    cases isRepeat : call.2.isRepeat with
    | false => simp [isRepeat]
    | true =>
      rw [if_pos rfl, mem_addMigration]
      constructor
      · rintro ((old | ⟨rfl, named⟩) | ⟨named, transition, later, same⟩)
        · exact .inl old
        · exact .inr ⟨named, call.2, List.mem_cons_self, isRepeat, rfl⟩
        · exact .inr ⟨named, transition, List.mem_cons_of_mem _ later, same⟩
      · rintro (old | ⟨named, transition, member, repeats, rfl⟩)
        · exact .inl (.inl old)
        · rcases List.mem_cons.1 member with rfl | later
          · exact .inl (.inr ⟨rfl, named⟩)
          · exact .inr ⟨named, transition, later, repeats, rfl⟩

/-! ## Reading off the repeat -/

section Reading

variable {calls : List (Nat × Transition)} {step : Step}

/-- A step has transitions once it was given any. -/
theorem Collected.isEmpty (collected : Collected calls step) : step.transitions.isEmpty = calls.isEmpty := by
  rw [Bool.eq_iff_iff, List.isEmpty_iff, List.isEmpty_iff]
  cases collected with
  | onward onward transitions place => rw [transitions, List.map_eq_nil_iff]
  | folded onward isRepeat transitions place => simp [transitions]

/-- What folding keeps holds of all transitions, if it holds of those that are given. -/
theorem Collected.forall_transitions {every : Transition → Prop} (collected : Collected calls step)
    (folds : ∀ call ∈ calls, ∀ merged, every merged → every (merged.fold call.1 call.2))
    (given : ∀ transition ∈ calls.map Prod.snd, every transition) :
    ∀ transition ∈ step.transitions, every transition := by
  cases collected with
  | onward onward transitions place => rwa [transitions]
  | @folded before after limit first _ onward isRepeat transitions place =>
    rw [List.map_append, List.forall_mem_append, List.map_cons, List.forall_mem_cons] at given
    obtain ⟨givenBefore, givenFirst, givenAfter⟩ := given
    rw [transitions, List.forall_mem_append, List.forall_mem_cons]
    refine ⟨givenBefore, Transition.foldAll_induction (fun call member => ?_) givenFirst, fun transition member => ?_⟩
    · exact folds call (List.mem_append_right _ (List.mem_cons_of_mem _ member))
    · exact givenAfter transition (List.mem_of_mem_filter member)

/-- Transitions that lead on stay as they are given, in order. -/
theorem Collected.filter_onward (collected : Collected calls step) :
    step.transitions.filter (!·.isRepeat) = (calls.map Prod.snd).filter (!·.isRepeat) := by
  cases collected with
  | onward onward transitions place => rw [transitions]
  | @folded before after limit first _ onward isRepeat transitions place =>
    simp [transitions, isRepeat]

/-- Where all other transitions lead on, the repeat is found at its place and nowhere else. -/
theorem getElem?_isRepeat_iff {before after : List Transition} {merged : Transition} (onwardBefore : Onward before)
    (isRepeat : merged.isRepeat = true) (onwardAfter : Onward after) {index : Nat} :
    (∃ transition, (before ++ merged :: after)[index]? = some transition ∧ transition.isRepeat = true) ↔
      before.length = index := by
  constructor
  · rintro ⟨transition, there, repeats⟩
    rcases Nat.lt_trichotomy before.length index with later | same | earlier
    · rw [List.getElem?_append_right later.le, List.getElem?_cons, if_neg (by omega)] at there
      rw [onwardAfter transition (List.mem_of_getElem? there)] at repeats
      cases repeats
    · exact same
    · rw [List.getElem?_append_left earlier] at there
      rw [onwardBefore transition (List.mem_of_getElem? there)] at repeats
      cases repeats
  · rintro rfl
    exact ⟨merged, by simp, isRepeat⟩

/-- The stored place is that of the repeat. -/
theorem Collected.repeatIndex?_eq_some_iff (collected : Collected calls step) {index : Nat} :
    step.repeatIndex? = some index ↔
      ∃ transition, step.transitions[index]? = some transition ∧ transition.isRepeat = true := by
  cases collected with
  | onward onward transitions place =>
    rw [place, transitions]
    constructor
    · intro found
      cases found
    · rintro ⟨transition, there, repeats⟩
      rw [onward transition (List.mem_of_getElem? there)] at repeats
      cases repeats
  | @folded before after limit first _ onward isRepeat transitions place =>
    rw [place, transitions, getElem?_isRepeat_iff onward ((first.isRepeat_foldAll after).trans isRepeat)
      (onward_filter _), List.length_map, Option.some.injEq]

/-- No place is stored if there is no repeat. -/
theorem Collected.repeatIndex?_eq_none_iff (collected : Collected calls step) :
    step.repeatIndex? = none ↔ Onward (calls.map Prod.snd) := by
  cases collected with
  | onward onward transitions place => exact iff_of_true place onward
  | @folded before after limit first _ _ isRepeat transitions place =>
    refine iff_of_false (by simp [place]) fun onward => ?_
    have leadsOn := onward first (by simp)
    rw [isRepeat] at leadsOn
    cases leadsOn

/-- There is one repeat at most. -/
theorem Collected.length_filter_le (collected : Collected calls step) :
    (step.transitions.filter (·.isRepeat)).length ≤ 1 := by
  cases collected with
  | onward onward transitions place =>
    rw [transitions, onward.filter_eq_nil]
    exact Nat.zero_le 1
  | @folded before after limit first _ onward isRepeat transitions place =>
    rw [transitions, List.filter_append, onward.filter_eq_nil, List.nil_append, List.filter_cons,
      (onward_filter _).filter_eq_nil]
    split <;> simp

/-- Without the repeat, a step has what leads on among what it was given. -/
theorem Collected.others (collected : Collected calls step) :
    step.repeatIndex?.elim step.transitions step.transitions.eraseIdx = (calls.map Prod.snd).filter (!·.isRepeat) := by
  cases collected with
  | onward onward transitions place => rw [place, transitions, Option.elim_none, onward.filter_eq_self]
  | @folded before after limit first _ onward isRepeat transitions place =>
    rw [place, transitions, Option.elim_some, List.map_append, List.filter_append, onward.filter_eq_self,
      List.eraseIdx_append_of_length_le (by simp), List.length_map, Nat.sub_self]
    simp [isRepeat]

/-- The repeat stands where the first repeat was given, and is that one but for its condition and operation. -/
theorem Collected.first (collected : Collected calls step) {index : Nat} (found : step.repeatIndex? = some index) :
    index = ((calls.map Prod.snd).takeWhile (!·.isRepeat)).length ∧
      ∃ first merged, (calls.map Prod.snd).find? (·.isRepeat) = some first ∧
        step.transitions[index]? = some merged ∧ first.SameWay merged := by
  cases collected with
  | onward onward transitions place =>
    rw [place] at found
    cases found
  | @folded before after limit first _ onward isRepeat transitions place =>
    rw [place] at found
    obtain rfl := Option.some.inj found
    refine ⟨?_, first, first.foldAll after, ?_, ?_, first.sameWay_foldAll after⟩
    · rw [List.map_append, List.takeWhile_append_of_pos fun transition member => by simp [onward transition member]]
      simp [isRepeat]
    · have noneBefore : (before.map Prod.snd).find? (·.isRepeat) = none :=
        List.find?_eq_none.2 fun transition member => by simp [onward transition member]
      rw [List.map_append, List.find?_append, noneBefore]
      simp [isRepeat]
    · rw [transitions, List.getElem?_append_right (by simp)]
      simp

/-- A step that is given nothing but repeats has one transition. -/
theorem Collected.of_repeats {limit : Nat} {first : Transition} {after : List (Nat × Transition)}
    (collected : Collected ((limit, first) :: after) step)
    (all : ∀ call ∈ (limit, first) :: after, call.2.isRepeat = true) : step.transitions = [first.foldAll after] := by
  obtain ⟨firstRepeats, laterRepeat⟩ := List.forall_mem_cons.1 all
  generalize same : (limit, first) :: after = calls at collected
  cases collected with
  | onward onward transitions place =>
    have leadsOn := onward first (by simp [← same])
    rw [firstRepeats] at leadsOn
    cases leadsOn
  | @folded before _ _ _ _ onward _ transitions place =>
    cases before with
    | nil =>
      obtain ⟨pair, rfl⟩ := List.cons.inj same
      obtain ⟨rfl, rfl⟩ := Prod.mk.inj pair
      have others : (after.map Prod.snd).filter (!·.isRepeat) = [] := by
        rw [List.filter_eq_nil_iff, List.forall_mem_map]
        intro call member
        simp [laterRepeat call member]
      rw [transitions, others]
      rfl
    | cons call before =>
      obtain ⟨rfl, -⟩ := List.cons.inj same
      have leadsOn := onward first (by simp)
      rw [firstRepeats] at leadsOn
      cases leadsOn

end Reading

end Step

/-- **Repeats are folded into one.** After any calls on a new step, with any limits: at most one transition is a repeat;
the place that the step stores is that of the repeat, and there is none if no repeat was given; without the repeat, the
transitions are those that lead on, as they were given; the repeat stands after as many of them as were given before
the first repeat, and has the handler, the inheritance and the resumption of that one; and the handlers of the step are
those of all repeats. -/
theorem repeats_folded (signature : Signature) (calls : List (Nat × Transition)) :
    let step := Step.addTransitions { signature } calls
    let given := calls.map Prod.snd
    (step.transitions.filter (·.isRepeat)).length ≤ 1 ∧
    (∀ index, step.repeatIndex? = some index ↔
      ∃ transition, step.transitions[index]? = some transition ∧ transition.isRepeat = true) ∧
    (step.repeatIndex? = none ↔ ∀ transition ∈ given, transition.isRepeat = false) ∧
    step.repeatIndex?.elim step.transitions step.transitions.eraseIdx = given.filter (!·.isRepeat) ∧
    (∀ index, step.repeatIndex? = some index → index = (given.takeWhile (!·.isRepeat)).length ∧
      ∃ first merged, given.find? (·.isRepeat) = some first ∧ step.transitions[index]? = some merged ∧
        merged.migration = first.migration ∧ merged.inherits = first.inherits ∧ merged.resumption = first.resumption) ∧
    ∀ handler, handler ∈ step.migrations ↔
      handler ≠ "" ∧ ∃ transition ∈ given, transition.isRepeat = true ∧ transition.migration = handler := by
  intro step given
  have collected : Step.Collected calls step := Step.collected_addTransitions rfl rfl calls
  refine ⟨collected.length_filter_le, fun _ => collected.repeatIndex?_eq_some_iff, collected.repeatIndex?_eq_none_iff,
    collected.others, fun index found => ?_, fun handler => ?_⟩
  · obtain ⟨place, first, merged, isFirst, there, condition, operation, rfl⟩ := collected.first found
    exact ⟨place, first, _, isFirst, there, rfl, rfl, rfl⟩
  · refine Step.mem_migrations_addTransitions.trans (or_iff_right ?_)
    exact List.not_mem_nil

end StepChart
