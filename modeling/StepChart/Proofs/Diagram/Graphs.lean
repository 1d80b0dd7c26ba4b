import StepChart.Proofs.Diagram.Documents
import StepChart.Proofs.Diagram.Groups

/-!
# Diagrams of graphs

Registration numbers machines and steps apart, and propagation keeps the numbers, so that the documents of a
graph are well drawn (`diagrams_wellDrawn`). An arrow does not always end where the transition leads: that of a
stop ends at the end of the machine even if a step of that name is registered (`stop_not_drawn_to`).
-/

namespace StepChart

open Drawing

/-! ## Numbers in a graph -/

theorem Machine.Records.nodup_number {machine : Machine} {visits : List Step} (records : machine.Records visits) :
    (machine.steps.map Step.number).Nodup :=
  records.numbers.nodup_iff.2 List.nodup_range'

/-- Propagation keeps the numbers of steps. -/
theorem Machine.map_number_propagate (machine : Machine) :
    machine.propagate.steps.map Step.number = machine.steps.map Step.number := by
  have bare := congrArg (List.map Step.number) (@Machine.bare_propagate machine)
  rw [List.map_map, List.map_map] at bare
  exact bare.trans (List.map_map ..)

namespace Graph

/-- The machines of a graph to which made steps were given. -/
structure Built (graph : Graph) : Prop where
  sequences : graph.machines.map Machine.sequence = List.range graph.machines.length
  reached : ∀ machine ∈ graph.machines, machine.Reached ∧ ∃ visits, machine.Records visits

theorem exists_records_add {machine : Machine} {visits : List Step} (records : machine.Records visits) (untyped : Bool)
    (step : Step) : ∃ visits, (machine.add untyped step).Records visits := by
  by_cases left : untyped = false ∧ step.kind = .plain
  · rw [Machine.add_eq, if_pos left]
    exact ⟨visits, records⟩
  · exact ⟨_, records.add step untyped left machine visits⟩

theorem Built.add {graph : Graph} (built : graph.Built) (output : String) {step : Step} (made : step.Made) :
    (graph.add output step).Built := by
  have taken : ∀ machine : Machine, (machine.Reached ∧ ∃ visits, machine.Records visits) →
      (machine.add false step).Reached ∧ ∃ visits, (machine.add false step).Records visits := by
    rintro machine ⟨reached, visits, records⟩
    exact ⟨reached.add made false, exists_records_add records false step⟩
  constructor
  · unfold Graph.add
    dsimp only
    split
    · rw [List.length_map, ← built.sequences, List.map_map]
      refine List.map_congr_left fun machine _ => ?_
      rw [Function.comp_apply]
      split
      · exact machine.sequence_add false step
      · rfl
    · rw [List.map_append, built.sequences, List.length_append, List.length_singleton, List.range_succ,
        List.map_singleton, Machine.sequence_add]
  · intro machine member
    rcases add_cases member with ⟨isOld, -⟩ | ⟨old, isOld, -, rfl⟩ | ⟨-, rfl⟩
    · exact built.reached machine isOld
    · exact taken old (built.reached old isOld)
    · exact taken _ ⟨.new _ _ _, [], Machine.records_nil _ _ _⟩

theorem Built.addAll {graph : Graph} (built : graph.Built) {calls : List (String × Step)}
    (made : ∀ call ∈ calls, call.2.Made) : (calls.foldl (fun graph call => graph.add call.1 call.2) graph).Built := by
  induction calls generalizing graph with
  | nil => exact built
  | cons call rest ih =>
    exact ih (built.add call.1 (made call List.mem_cons_self)) fun other member =>
      made other (List.mem_cons_of_mem _ member)

theorem built_nil : Built {} := ⟨rfl, fun _ member => absurd member List.not_mem_nil⟩

theorem Built.drawable_propagate {graph : Graph} (built : graph.Built) : Drawable graph.propagate.machines := by
  constructor
  · have sequences : graph.propagate.machines.map Machine.sequence = graph.machines.map Machine.sequence := by
      simp only [Graph.propagate, List.map_map]
      rfl
    rw [sequences, built.sequences]
    exact List.nodup_range
  · intro machine member
    obtain ⟨original, isOriginal, rfl⟩ := List.mem_map.1 member
    obtain ⟨-, visits, records⟩ := built.reached original isOriginal
    rw [original.map_number_propagate]
    exact records.nodup_number
  · intro machine member
    obtain ⟨original, isOriginal, rfl⟩ := List.mem_map.1 member
    exact (built.reached original isOriginal).1.named.propagate
  · intro machine member step isStep transition isTransition key found
    obtain ⟨original, isOriginal, rfl⟩ := List.mem_map.1 member
    rw [Machine.targets_propagate isStep isTransition] at found
    rw [Machine.names_propagate]
    exact Machine.mem_names_of_key? found

end Graph

/-! ## Documents of a graph -/

/-- The graph of steps that are registered in turn, each with the output of its file, once handlers are propagated. -/
def graphOf (calls : List (String × Step)) : Graph :=
  (calls.foldl (fun graph call => graph.add call.1 call.2) ({} : Graph)).propagate

/-- **Documents are well drawn**: each machine of a graph is in one document, and all its steps are shown there, by
aliases that tell nodes apart. -/
theorem diagrams_wellDrawn {calls : List (String × Step)} (made : ∀ call ∈ calls, call.2.Made) (console : Bool)
    (extension : String) :
    ∃ parts : List (List Machine),
      parts.flatten.Perm (graphOf calls).machines ∧ (console = true → parts.length = 1) ∧
      ((graphOf calls).diagrams console extension).map Diagram.content = parts.map document ∧
      Function.Injective Node.alias ∧ ∀ part ∈ parts, WellDrawn part (linesOf part) := by
  have ordered : (graphOf calls).ordered.Perm (graphOf calls).machines := List.mergeSort_perm _ _
  have drawable : Drawable (graphOf calls).ordered :=
    (Graph.built_nil.addAll made).drawable_propagate.perm ordered
  cases console with
  | true =>
    refine ⟨[(graphOf calls).ordered], by rwa [List.flatten_singleton], fun _ => rfl, rfl, Node.alias_injective, ?_⟩
    rintro part member
    rw [List.mem_singleton.1 member]
    exact wellDrawn_linesOf drawable
  | false =>
    have parts := flatten_groupByOutput (graphOf calls).ordered
    refine ⟨(groupByOutput (graphOf calls).ordered).map (·.2), by rwa [parts], nofun, ?_, Node.alias_injective, ?_⟩
    · rw [Graph.diagrams_files, List.map_map, List.map_map]
      rfl
    · intro part member
      have isPart := List.sublist_flatten_of_mem member
      rw [parts] at isPart
      exact wellDrawn_linesOf (drawable.sublist isPart)

/-- A step with the name of the end of a machine, and a step with a transition there. -/
def stopping : List (String × Step) :=
  [("out", { signature := { receiverType := "SM", name := "<stop>", kind := .execution } }),
   ("out", Step.addTransition { signature := { receiverType := "SM", name := "run", kind := .execution } } 30
     { destination := "<stop>", inherits := true })]

theorem made_stopping : ∀ call ∈ stopping, call.2.Made := by
  have stop : Step.Made { signature := { receiverType := "SM", name := "<stop>", kind := .execution } } :=
    .new _ _ _ fun _ member => absurd member List.not_mem_nil
  have run : Step.Made { signature := { receiverType := "SM", name := "run", kind := .execution } } :=
    .new _ _ _ fun _ member => absurd member List.not_mem_nil
  intro call member
  rcases List.mem_cons.1 member with rfl | last
  · exact stop
  · rw [List.mem_singleton.1 last]
    exact run.addTransition 30 { destination := "<stop>", inherits := true }

theorem diagrams_wellDrawn_stopping : (∀ call ∈ stopping, call.2.Made) ∧ ∃ parts : List (List Machine),
    parts.flatten.Perm (graphOf stopping).machines ∧ (false = true → parts.length = 1) ∧
    ((graphOf stopping).diagrams false ".plantuml").map Diagram.content = parts.map document ∧
    Function.Injective Node.alias ∧ ∀ part ∈ parts, WellDrawn part (linesOf part) :=
  ⟨made_stopping, diagrams_wellDrawn made_stopping false ".plantuml"⟩

/-- Not every arrow ends at the step that was found for its transition. -/
theorem stop_not_drawn_to : ¬ ∀ machine ∈ (graphOf stopping).machines, ∀ source ∈ machine.steps,
    ∀ transition ∈ source.transitions, ∀ target ∈ machine.steps, transition.targets.destination = some target.name →
      ∃ line ∈ linesOf (graphOf stopping).ordered,
        line.left? = some (nodeOf machine source) ∧ nodeOf machine target ∈ line.mentioned := by
  have lines : linesOf (graphOf stopping).ordered = [.state "<stop>" ⟨0, true, 1⟩ false, .remark ⟨0, true, 1⟩ "SM",
      .state "run" ⟨0, true, 2⟩ false, .remark ⟨0, true, 2⟩ "SM", .stop ⟨0, true, 2⟩ ""] := by decide +kernel
  rw [lines]
  decide +kernel

end StepChart
