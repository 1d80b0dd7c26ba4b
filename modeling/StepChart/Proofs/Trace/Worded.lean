import Mathlib.Data.List.Forall2
import StepChart.Proofs.Naming.Steps

/-!
# From outlines to steps, one by one

A step has the moves of its outline as transitions, in order and with their guards in words, except that repeats are
folded (`toStep_worded`); the steps inside it are those of the outlines inside the outline (`toSteps_forall₂`).
-/

namespace StepChart

/-! ## Related lists -/

theorem exists_of_mem_forall₂ {α β : Type} {related : α → β → Prop} {first : List α} {second : List β}
    (all : List.Forall₂ related first second) {b : β} (member : b ∈ second) : ∃ a ∈ first, related a b := by
  induction all with
  | nil => cases member
  | cons same rest ih =>
    rcases List.mem_cons.1 member with rfl | later
    · exact ⟨_, List.mem_cons_self, same⟩
    · obtain ⟨a, isA, sameLater⟩ := ih later
      exact ⟨a, List.mem_cons_of_mem _ isA, sameLater⟩

/-- Where one of two related lists has a single element that passes a test, so has the other. -/
theorem exists_filter_eq_singleton {α β : Type} {related : α → β → Prop} {p : α → Bool} {q : β → Bool}
    (agree : ∀ a b, related a b → p a = q b) {first : List α} {second : List β} (all : List.Forall₂ related first second)
    {a : α} (one : first.filter p = [a]) : ∃ b, second.filter q = [b] ∧ related a b := by
  have filtered := List.rel_filter (p := p) (q := q) (fun a b same => by simp [agree a b same]) all
  rw [one, List.forall₂_cons_left_iff] at filtered
  obtain ⟨b, rest, same, none, whole⟩ := filtered
  rw [List.forall₂_nil_left_iff.1 none] at whole
  exact ⟨b, whole, same⟩

/-! ## Moves -/

/-- A transition is that of a move, under some condition. -/
def Move.Worded (move : Move) (transition : Transition) : Prop :=
  ∃ condition, transition = { move.transition with condition }

section Wording

variable {wording : Wording}

theorem worded_of_transition {move : Move} {transition : Transition} (worded : wording.transition move = .ok transition) :
    move.Worded transition := by
  unfold Wording.transition at worded
  split at worded
  · cases worded
    exact ⟨move.transition.condition, rfl⟩
  · next guard _ =>
    cases label : wording.label guard with
    | error fault =>
      rw [label] at worded
      cases worded
    | ok condition =>
      rw [label] at worded
      cases worded
      exact ⟨condition, rfl⟩

/-- Moves are put into words one after the other. -/
theorem addMoves_worded {step result : Step} {moves : List Move} (worded : wording.addMoves step moves = .ok result) :
    ∃ transitions, List.Forall₂ Move.Worded moves transitions ∧
      result = step.addTransitions (transitions.map (Prod.mk wording.limit)) := by
  induction moves generalizing step with
  | nil =>
    cases worded
    exact ⟨[], .nil, rfl⟩
  | cons move moves ih =>
    unfold Wording.addMoves at worded
    split at worded
    · cases worded
    · next transition inWords =>
      obtain ⟨transitions, rest, rfl⟩ := ih worded
      exact ⟨transition :: transitions, .cons (worded_of_transition inWords) rest, rfl⟩

/-- A step has collected the transitions of its moves, in words. -/
theorem toStep_collected {outline : Outline} {step : Step} (worded : outline.toStep wording = .ok step) :
    ∃ transitions, List.Forall₂ Move.Worded outline.moves transitions ∧
      step.Collected (transitions.map (Prod.mk wording.limit)) := by
  obtain ⟨signature, moves, subSteps, usages, migrations, isSubroutine⟩ := outline
  unfold Outline.toStep at worded
  split at worded
  · cases worded
  · obtain ⟨transitions, inWords, rfl⟩ := addMoves_worded worded
    exact ⟨transitions, inWords, Step.collected_addTransitions rfl rfl _⟩

theorem toSteps_forall₂ {outlines : List Outline} {steps : List Step}
    (worded : Outline.toSteps wording outlines = .ok steps) :
    List.Forall₂ (fun outline step => outline.toStep wording = .ok step) outlines steps := by
  induction outlines generalizing steps with
  | nil =>
    cases worded
    exact .nil
  | cons outline outlines ih =>
    unfold Outline.toSteps at worded
    split at worded
    · cases worded
    · next first wordedFirst =>
      cases rest : Outline.toSteps wording outlines with
      | error fault =>
        rw [rest] at worded
        cases worded
      | ok others =>
        rw [rest] at worded
        cases worded
        exact .cons wordedFirst (ih rest)

/-- The signature and the flag of a step are those of its outline; its transitions are those of the moves. -/
structure Outline.WordedAs (wording : Wording) (outline : Outline) (step : Step) : Prop where
  signature : step.signature = outline.signature
  flag : step.isSubroutine = outline.isSubroutine
  inner : List.Forall₂ (fun outline step => outline.toStep wording = .ok step) outline.subSteps step.subSteps
  moves : ∃ transitions, List.Forall₂ Move.Worded outline.moves transitions ∧
    step.transitions.filter (!·.isRepeat) = transitions.filter (!·.isRepeat) ∧
    ∀ every : Transition → Prop, (∀ first more, every first → every (first.fold wording.limit more)) →
      (∀ transition ∈ transitions, every transition) → ∀ transition ∈ step.transitions, every transition

theorem toStep_worded {outline : Outline} {step : Step} (worded : outline.toStep wording = .ok step) :
    outline.WordedAs wording step := by
  obtain ⟨transitions, inWords, collected⟩ := toStep_collected worded
  obtain ⟨signature, moves, subSteps, usages, migrations, isSubroutine⟩ := outline
  unfold Outline.toStep at worded
  split at worded
  · cases worded
  · next steps subs =>
    obtain ⟨sameSignature, sameSubs, sameFlag, -⟩ := addMoves_ok worded (.new rfl rfl)
    have given : (transitions.map (Prod.mk wording.limit)).map Prod.snd = transitions := by
      rw [List.map_map, Function.comp_def, List.map_id']
    refine ⟨sameSignature, sameFlag, ?_, transitions, inWords, ?_, fun every folds added => ?_⟩
    · rw [sameSubs]
      exact toSteps_forall₂ subs
    · rw [collected.filter_onward, given]
    · refine collected.forall_transitions (List.forall_mem_map.2 fun transition _ merged => folds merged transition) ?_
      rwa [given]

end Wording

end StepChart
