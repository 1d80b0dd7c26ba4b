import StepChart.Analysis
import StepChart.Proofs.Basic
import StepChart.Proofs.Machine.Relabel
import StepChart.Proofs.Syntax.Samples

/-!
# Wording never shows in the graph

Two analyses of a file that differ in the room for labels and in the source text that labels quote find the same
steps but for the words of conditions, and so do the machines that the steps are registered with
(`analyze_alike`). A guard has an empty label only if it has no alternatives (`isEmpty_label`), so which
conditions are there is the same as well.
-/

namespace StepChart

open Syntax

/-- The steps are the same whatever words stand for conditions that are there, and for conditions that are empty:
one word for both erases conditions, and two words show which of them are there. -/
def Step.Alike (first second : List Step) : Prop :=
  ∀ word : Bool → String, first.map (Step.relabel word) = second.map (Step.relabel word)

/-- The graphs are the same but for the words of conditions. -/
def Graph.Alike (first second : Graph) : Prop :=
  ∀ word : Bool → String, first.relabel word = second.relabel word

theorem Step.alike_of_presence {first second : List Step}
    (same : relabelAll presence first = relabelAll presence second) : Step.Alike first second := by
  intro word
  rw [← relabelAll_eq_map, ← relabelAll_eq_map, ← relabelAll_presence word first, same, relabelAll_presence]

/-! ## Labels -/

theorem isEmpty_bracket (inverted : Bool) (text : String) : (Guard.bracket inverted text).isEmpty = false := by
  rw [Bool.eq_false_iff, Ne, String.isEmpty_iff]
  unfold Guard.bracket
  simp only [String.append_eq_empty_iff]
  rintro ⟨-, closing⟩
  exact absurd closing (by decide)

/-- Whether a label is empty depends on nothing but the guard. -/
theorem isEmpty_label {source : String} {room : Nat} {guard : Guard} {label : String}
    (labelled : guard.label source room = .ok label) : label.isEmpty = guard.alternatives.isEmpty := by
  unfold Guard.label at labelled
  split at labelled
  · next none =>
    cases labelled
    rw [none]
    rfl
  · next some =>
    obtain ⟨text, -, rfl⟩ := exists_of_map_eq_ok labelled
    rw [isEmpty_bracket]
    exact (List.isEmpty_eq_false_iff.2 some).symm

/-- Labels of the two wordings are empty for the same guards. -/
def Wording.Agrees (first second : Wording) : Prop :=
  ∀ guard label other, first.label guard = .ok label → second.label guard = .ok other → label.isEmpty = other.isEmpty

theorem agrees_ofSource (source otherSource : String) (room otherRoom : Nat) :
    (Wording.ofSource source room).Agrees (.ofSource otherSource otherRoom) := by
  intro guard label other labelled relabelled
  rw [isEmpty_label labelled, isEmpty_label relabelled]

/-! ## Steps -/

section Wording

variable {first second : Wording}

theorem transition_alike (agrees : first.Agrees second) {move : Move} {transition other : Transition}
    (worded : first.transition move = .ok transition) (reworded : second.transition move = .ok other) :
    transition.relabel presence = other.relabel presence := by
  unfold Wording.transition at worded reworded
  split at worded
  · next unguarded =>
    rw [unguarded] at reworded
    rw [← Except.ok.inj worded, ← Except.ok.inj reworded]
  · next guard guarded =>
    rw [guarded] at reworded
    obtain ⟨label, labelled, rfl⟩ := exists_of_map_eq_ok worded
    obtain ⟨otherLabel, relabelled, rfl⟩ := exists_of_map_eq_ok reworded
    simp only [Transition.relabel]
    rw [agrees guard label otherLabel labelled relabelled]

/-- **Moves enter steps that are alike in the same way**, whatever the words. -/
theorem addMoves_alike (agrees : first.Agrees second) {moves : List Move} {step other result otherResult : Step}
    (alike : step.relabel presence = other.relabel presence) (worded : first.addMoves step moves = .ok result)
    (reworded : second.addMoves other moves = .ok otherResult) :
    result.relabel presence = otherResult.relabel presence := by
  induction moves generalizing step other with
  | nil =>
    cases worded
    cases reworded
    exact alike
  | cons move moves ih =>
    unfold Wording.addMoves at worded reworded
    split at worded
    · cases worded
    · next transition wordedMove =>
      split at reworded
      · cases reworded
      · next otherTransition rewordedMove =>
        refine ih ?_ worded reworded
        rw [Step.relabel_addTransition, Step.relabel_addTransition other, alike,
          transition_alike agrees wordedMove rewordedMove]

mutual

theorem toStep_alike (agrees : first.Agrees second) : (outline : Outline) → (step other : Step) →
    outline.toStep first = .ok step → outline.toStep second = .ok other →
    step.relabel presence = other.relabel presence
  | ⟨signature, moves, subSteps, usages, migrations, isSubroutine⟩, step, other, worded, reworded => by
    unfold Outline.toStep at worded reworded
    split at worded
    · cases worded
    · next inner wordedInner =>
      split at reworded
      · cases reworded
      · next otherInner rewordedInner =>
        refine addMoves_alike agrees ?_ worded reworded
        simp only [Step.relabel]
        rw [toSteps_alike agrees subSteps inner otherInner wordedInner rewordedInner]

theorem toSteps_alike (agrees : first.Agrees second) : (outlines : List Outline) → (steps others : List Step) →
    Outline.toSteps first outlines = .ok steps → Outline.toSteps second outlines = .ok others →
    Step.relabelAll presence steps = Step.relabelAll presence others
  | [], steps, others, worded, reworded => by
    cases worded
    cases reworded
    rfl
  | outline :: outlines, steps, others, worded, reworded => by
    unfold Outline.toSteps at worded reworded
    split at worded
    · cases worded
    · next step wordedFirst =>
      split at reworded
      · cases reworded
      · next other rewordedFirst =>
        obtain ⟨rest, wordedRest, rfl⟩ := exists_of_map_eq_ok worded
        obtain ⟨otherRest, rewordedRest, rfl⟩ := exists_of_map_eq_ok reworded
        simp only [Step.relabelAll]
        rw [toStep_alike agrees outline step other wordedFirst rewordedFirst,
          toSteps_alike agrees outlines rest otherRest wordedRest rewordedRest]

end

end Wording

/-! ## Graphs -/

theorem Graph.Alike.addSteps {graph otherGraph : Graph} (alike : graph.Alike otherGraph) {steps others : List Step}
    (same : Step.Alike steps others) (output : String) :
    (graph.addSteps output steps).Alike (otherGraph.addSteps output others) := by
  intro word
  rw [Graph.relabel_addSteps, Graph.relabel_addSteps, alike word, same word]

theorem Graph.Alike.propagate {graph otherGraph : Graph} (alike : graph.Alike otherGraph) :
    graph.propagate.Alike otherGraph.propagate := by
  intro word
  rw [Graph.relabel_propagate, Graph.relabel_propagate, alike word]

/-- **Label settings never show in the graph.** The steps of a file are the same, but for the words of conditions,
whatever the room for labels and whatever source text is attached to the tree. So are graphs that were alike before
the steps were registered, and what spreading handlers makes of them. -/
theorem analyze_alike {framework : String} {file : SourceFile} {room otherRoom : Nat} {otherSource : String}
    {steps others : List Step} (worded : analyze { framework, room } file = .ok steps)
    (reworded : analyze { framework, room := otherRoom } { file with source := otherSource } = .ok others) :
    Step.Alike steps others ∧
    ∀ (output : String) (graph otherGraph : Graph), graph.Alike otherGraph →
      (graph.addSteps output steps).Alike (otherGraph.addSteps output others) ∧
      (graph.addSteps output steps).propagate.Alike (otherGraph.addSteps output others).propagate := by
  have agrees := agrees_ofSource file.source otherSource room otherRoom
  have same : Step.Alike steps others :=
    Step.alike_of_presence (toSteps_alike agrees (outlines framework file) steps others worded reworded)
  refine ⟨same, fun output graph otherGraph alike => ?_⟩
  have registered := alike.addSteps same output
  exact ⟨registered, registered.propagate⟩

/-- A file with one step, which comes back to itself in two branches. The test of the first branch has no form of
its own, so that its label quotes the source. -/
def pollingFile : SourceFile :=
  let repeats : Stmt := .ret [Sample.onContext "Repeat" []]
  { Sample.file "polling.go" [
      Sample.stepDecl "smachine" "Polling" "poll" "ExecutionContext" [
        .ifElse (.ident ⟨0, 5⟩ "") [repeats] none,
        .ifElse (.binary default "&&" (Sample.ident "first") (Sample.ident "second")) [repeats] none,
        .ret [Sample.onContext "Stop" []]]]
    with source := "ready" }

/-- The steps of the file, with so much room for labels and another source text. -/
def pollingSteps (room : Nat) (source : String) : List Step :=
  (analyze { room } { pollingFile with source }).toOption.getD []

/-- The conditions of its transitions differ in their words, the graphs in nothing else. -/
theorem analyze_alike_polling :
    ((pollingSteps 30 "ready").flatMap (·.transitions)).map (·.condition) = ["[ready]\\n[first&&second]", ""] ∧
    ((pollingSteps 4 "done?").flatMap (·.transitions)).map (·.condition) = ["[done...]\\n[...&&second]...", ""] ∧
    Step.Alike (pollingSteps 30 "ready") (pollingSteps 4 "done?") ∧
    (({} : Graph).addSteps "polling" (pollingSteps 30 "ready")).propagate.Alike
      (({} : Graph).addSteps "polling" (pollingSteps 4 "done?")).propagate := by
  have worded : analyze { room := 30 } pollingFile = .ok (pollingSteps 30 "ready") := rfl
  have reworded : analyze { room := 4 } { pollingFile with source := "done?" } = .ok (pollingSteps 4 "done?") := rfl
  obtain ⟨same, graphs⟩ := analyze_alike worded reworded
  refine ⟨by decide +kernel, by decide +kernel, same, ?_⟩
  exact (graphs "polling" {} {} fun _ => rfl).2

/-- A file with one step, which stops in a case of two alternatives. -/
def choosingFile : SourceFile :=
  Sample.file "choosing.go" [
    Sample.stepDecl "smachine" "Choosing" "choose" "ExecutionContext" [
      .switch [.caseClause [Sample.ident "a", Sample.ident "b"] [.ret [Sample.onContext "Stop" []]]],
      .ret [Sample.onContext "Jump" [.selector default (Sample.ident "s") "choose"]]]]

/-- **With the most room for labels there may be no steps to compare**: a number of a label is out of range, though no
label quotes the source. -/
theorem wide_room_no_steps :
    (∃ steps, analyze { room := 30 } choosingFile = .ok steps) ∧
    analyze { room := 9223372036854775807 } choosingFile = .error .outOfRange ∧
    ¬ ∀ (file : SourceFile) (room otherRoom : Nat) (steps : List Step), analyze { room } file = .ok steps →
      analyze { room := otherRoom } file ≠ .error .outOfRange := by
  have found : ∃ steps, analyze { room := 30 } choosingFile = .ok steps := ⟨_, rfl⟩
  have fails : analyze { room := 9223372036854775807 } choosingFile = .error .outOfRange := rfl
  refine ⟨found, fails, fun never => ?_⟩
  obtain ⟨steps, worded⟩ := found
  exact never choosingFile 30 9223372036854775807 steps worded fails

end StepChart
