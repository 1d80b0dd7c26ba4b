import StepChart.Proofs.Diagram.Groups
import StepChart.Proofs.Machine.Graph
import StepChart.Proofs.Text.Pieces
import StepChart.Run.Plan

/-!
# Documents without states

A machine belongs to the output of the file in which its first step was found, also if this step is left out later,
as plain steps are. So an output can have machines of which none has a step, and its document is empty although the
graph is not. `documents_declare_iff` says which outputs these are.
-/

namespace StepChart

open Drawing Text

/-! ## Lines of a document -/

namespace Drawing

theorem foldl_grows {α : Type} {run : Drawing → α → Drawing}
    (grows : ∀ drawing item, drawing.lines <+: (run drawing item).lines) (items : List α) (drawing : Drawing) :
    drawing.lines <+: (items.foldl run drawing).lines := by
  induction items generalizing drawing with
  | nil => exact List.prefix_refl _
  | cons item rest ih => exact (grows drawing item).trans (ih (run drawing item))

/-- What one item draws stays drawn. -/
theorem mem_foldl {α : Type} {run : Drawing → α → Drawing}
    (grows : ∀ drawing item, drawing.lines <+: (run drawing item).lines) {items : List α} {item : α}
    (member : item ∈ items) {line : Line} (draws : ∀ drawing, line ∈ (run drawing item).lines) (drawing : Drawing) :
    line ∈ (items.foldl run drawing).lines := by
  obtain ⟨before, after, rfl⟩ := List.append_of_mem member
  rw [List.foldl_append, List.foldl_cons]
  exact (foldl_grows grows after _).subset (draws _)

theorem draw_grows (drawing : Drawing) (lines : List Line) : drawing.lines <+: (drawing.draw lines).lines :=
  List.prefix_append _ _

theorem nodeFor_grows (machine : Machine) (name : String) (target : Option Step) (drawing : Drawing) :
    drawing.lines <+: (nodeFor machine name target drawing).2.lines := by
  cases target with
  | none => exact draw_grows drawing _
  | some step => exact List.prefix_refl _

theorem drawHandler_grows (machine : Machine) (source : Node) (drawing : Drawing) (migration : String) :
    drawing.lines <+: (drawHandler machine source drawing migration).lines :=
  (nodeFor_grows machine migration _ drawing).trans (draw_grows _ _)

theorem drawTransition_grows (machine : Machine) (source : Node) (drawing : Drawing) (transition : Transition) :
    drawing.lines <+: (drawTransition machine source drawing transition).lines := by
  unfold drawTransition
  dsimp only
  split
  · exact draw_grows _ _
  · split
    · exact draw_grows _ _
    · exact (nodeFor_grows machine _ _ drawing).trans (draw_grows _ _)

/-- The step has been declared when its arrows are drawn. -/
theorem drawStep_grows (machine : Machine) (drawing : Drawing) (step : Step) :
    drawing.lines ++ [.state step.name (nodeOf machine step) step.isSubroutine] <+:
      (drawStep machine drawing step).lines := by
  refine List.IsPrefix.trans ?_ ((foldl_grows (drawHandler_grows machine _) _ _).trans
    (foldl_grows (drawTransition_grows machine _) step.transitions _))
  simp [draw, List.append_assoc]

theorem drawMachine_grows (drawing : Drawing) (machine : Machine) :
    drawing.lines <+: (drawing.drawMachine machine).lines :=
  foldl_grows (fun drawing step => (List.prefix_append _ _).trans (drawStep_grows machine drawing step)) _ drawing

end Drawing

/-- Every step of the machines is declared. -/
theorem state_mem_linesOf {machines : List Machine} {machine : Machine} (member : machine ∈ machines) {step : Step}
    (isStep : step ∈ machine.steps) : .state step.name (nodeOf machine step) step.isSubroutine ∈ linesOf machines := by
  refine mem_foldl drawMachine_grows member (fun drawing => ?_) {}
  refine mem_foldl (fun drawing step => (List.prefix_append _ _).trans (drawStep_grows machine drawing step)) isStep
    (fun drawing => ?_) drawing
  exact (drawStep_grows machine drawing step).subset (List.mem_append_right _ List.mem_cons_self)

theorem linesOf_eq_nil {machines : List Machine} (empty : ∀ machine ∈ machines, machine.steps = []) :
    linesOf machines = [] := by
  have same : machines.foldl drawMachine {} = {} := by
    induction machines with
    | nil => rfl
    | cons machine rest ih =>
      have nothing : drawMachine {} machine = {} := by
        rw [drawMachine, empty machine List.mem_cons_self, List.foldl_nil]
      rw [List.foldl_cons, nothing]
      exact ih fun other isOther => empty other (List.mem_cons_of_mem _ isOther)
  rw [linesOf, same]

/-! ## Text of a document -/

/-- A line of the text declares a state. -/
def declaresState (text : String) : Bool :=
  occursIn "\nstate ".toList text.toList

theorem toList_joinLines (lines : List String) :
    (joinLines lines).toList = lines.flatMap fun line => line.toList ++ ['\n'] := by
  have onto : ∀ text : String, (lines.foldl (fun text line => text ++ line ++ "\n") text).toList =
      text.toList ++ lines.flatMap fun line => line.toList ++ ['\n'] := by
    induction lines with
    | nil => simp
    | cons line rest ih =>
      intro text
      rw [List.foldl_cons, ih]
      simp
  exact onto ""

/-- A line that is not the first one stands after the end of another. -/
theorem line_isInfix_joinLines {first line : String} {rest : List String} (member : line ∈ rest) :
    '\n' :: line.toList <:+: (joinLines (first :: rest)).toList := by
  obtain ⟨before, after, rfl⟩ := List.append_of_mem member
  obtain ⟨earlier, last, isLast⟩ : ∃ earlier last, first :: before = earlier ++ [last] :=
    ⟨_, _, (List.dropLast_append_getLast (List.cons_ne_nil first before)).symm⟩
  rw [toList_joinLines, ← List.cons_append, isLast]
  refine ⟨earlier.flatMap (fun line => line.toList ++ ['\n']) ++ last.toList,
    '\n' :: after.flatMap (fun line => line.toList ++ ['\n']), ?_⟩
  simp

/-- A document of machines without steps is empty. -/
theorem document_eq_empty {machines : List Machine} (empty : ∀ machine ∈ machines, machine.steps = []) :
    document machines = "@startuml\n@enduml\n" := by
  rw [document, linesOf_eq_nil empty]
  rfl

/-- **A document declares a state if and only if a machine in it has a step.** -/
theorem declaresState_document (machines : List Machine) :
    declaresState (document machines) = true ↔ ∃ machine ∈ machines, machine.steps ≠ [] := by
  constructor
  · intro declares
    by_contra none
    have empty : ∀ machine ∈ machines, machine.steps = [] := by simpa using none
    rw [document_eq_empty empty] at declares
    exact absurd declares (by decide +kernel)
  · rintro ⟨machine, member, nonempty⟩
    obtain ⟨step, isStep⟩ := List.exists_mem_of_ne_nil _ nonempty
    let line := Line.state step.name (nodeOf machine step) step.isSubroutine
    have isLine : line.text ∈ (linesOf machines).map Line.text ++ ["@enduml"] :=
      List.mem_append_left _ (List.mem_map_of_mem (state_mem_linesOf member isStep))
    have starts : "\nstate ".toList <+: '\n' :: line.text.toList := by simp [line, Line.text]
    exact occursIn_iff.2 (starts.isInfix.trans (line_isInfix_joinLines isLine))

/-! ## Outputs of machines -/

/-- The output of a receiver type among steps that were given in turn, each with the output of its file: that of its
first step. -/
def home? (receiverType : String) (given : List (String × Step)) : Option String :=
  (given.find? (·.2.signature.receiverType == receiverType)).map (·.1)

theorem home?_append_of_some {receiverType output : String} {given : List (String × Step)}
    (found : home? receiverType given = some output) (more : List (String × Step)) :
    home? receiverType (given ++ more) = some output := by
  unfold home? at found ⊢
  obtain ⟨call, isFirst, rfl⟩ := Option.map_eq_some_iff.1 found
  rw [List.find?_append, isFirst]
  rfl

theorem home?_concat_of_new {given : List (String × Step)} {step : Step}
    (new : ∀ call ∈ given, call.2.signature.receiverType ≠ step.signature.receiverType) (output : String) :
    home? step.signature.receiverType (given ++ [(output, step)]) = some output := by
  have none : given.find? (·.2.signature.receiverType == step.signature.receiverType) = none := by
    simpa using new
  unfold home?
  rw [List.find?_append, none]
  simp

/-- A step that is not plain is registered, if under its name no other is. -/
theorem Machine.name_mem_add {machine : Machine} {step : Step} (typed : step.kind ≠ .plain) :
    step.name ∈ (machine.add false step).names := by
  by_cases seen : step.name ∈ machine.names
  · exact mem_names_add_of_mem seen false step
  · rw [add_of_fresh (.inr typed) seen]
    exact ((keeps_store seen).addAll step.subSteps).name_mem

theorem Machine.steps_ne_nil_of_mem_names {machine : Machine} {name : String} (member : name ∈ machine.names) :
    machine.steps ≠ [] := by
  obtain ⟨step, isStep, -⟩ := List.mem_map.1 member
  exact List.ne_nil_of_mem isStep

/-- Registration leaves a machine empty only if it was, and the step is plain. -/
theorem Machine.steps_add_ne_nil {machine : Machine} {step : Step} :
    (machine.add false step).steps ≠ [] ↔ machine.steps ≠ [] ∨ step.kind ≠ .plain := by
  constructor
  · intro nonempty
    by_contra neither
    obtain ⟨empty, plain⟩ := not_or.1 neither
    rw [add_eq, if_pos ⟨rfl, not_not.1 plain⟩] at nonempty
    exact empty nonempty
  · rintro (nonempty | typed)
    · obtain ⟨stored, isStored⟩ := List.exists_mem_of_ne_nil _ nonempty
      exact steps_ne_nil_of_mem_names (mem_names_add_of_mem (List.mem_map_of_mem isStored) false step)
    · exact steps_ne_nil_of_mem_names (name_mem_add typed)

namespace Graph

/-- The machines of the graph are those of the receiver types of the given steps. They belong to the outputs of their
first steps, and have steps if a step that is not plain was among those given. -/
structure Filed (graph : Graph) (given : List (String × Step)) : Prop where
  home : ∀ machine ∈ graph.machines, home? machine.receiverType given = some machine.output
  filled : ∀ machine ∈ graph.machines, machine.steps ≠ [] ↔
    ∃ call ∈ given, call.2.signature.receiverType = machine.receiverType ∧ call.2.kind ≠ .plain
  present : ∀ call ∈ given, ∃ machine ∈ graph.machines, machine.receiverType = call.2.signature.receiverType

theorem filed_nil : Filed {} [] :=
  ⟨List.forall_mem_nil _, List.forall_mem_nil _, List.forall_mem_nil _⟩

theorem Filed.add {graph : Graph} {given : List (String × Step)} (filed : graph.Filed given) (output : String)
    (step : Step) : (graph.add output step).Filed (given ++ [(output, step)]) := by
  constructor
  · intro machine member
    rcases add_cases member with ⟨isOld, -⟩ | ⟨old, isOld, -, rfl⟩ | ⟨none, rfl⟩
    · exact home?_append_of_some (filed.home machine isOld) _
    · rw [Machine.receiverType_add, Machine.output_add]
      exact home?_append_of_some (filed.home old isOld) _
    · rw [Machine.receiverType_add, Machine.output_add]
      refine home?_concat_of_new (fun call isGiven same => ?_) output
      obtain ⟨machine, isMachine, isType⟩ := filed.present call isGiven
      exact none machine isMachine (isType.trans same)
  · intro machine member
    simp only [List.mem_append, List.mem_singleton, or_and_right, exists_or, exists_eq_left]
    rcases add_cases member with ⟨isOld, notType⟩ | ⟨old, isOld, isType, rfl⟩ | ⟨none, rfl⟩
    · rw [filed.filled machine isOld]
      simp [notType.symm]
    · rw [Machine.steps_add_ne_nil, filed.filled old isOld, Machine.receiverType_add, isType]
      simp
    · have notGiven : ¬ ∃ call ∈ given, call.2.signature.receiverType = step.signature.receiverType ∧
          call.2.kind ≠ .plain := by
        rintro ⟨call, isGiven, same, -⟩
        obtain ⟨machine, isMachine, isType⟩ := filed.present call isGiven
        exact none machine isMachine (isType.trans same)
      rw [Machine.steps_add_ne_nil, Machine.receiverType_add]
      simp [notGiven]
  · intro call member
    rcases List.mem_append.1 member with old | new
    · obtain ⟨machine, isMachine, isType⟩ := filed.present call old
      rw [← isType]
      exact exists_mem_add_of_mem isMachine
    · rw [List.mem_singleton.1 new]
      exact exists_mem_add_self

theorem Filed.addSteps {graph : Graph} {given : List (String × Step)} (filed : graph.Filed given) (output : String)
    (steps : List Step) : (graph.addSteps output steps).Filed (given ++ steps.map (output, ·)) := by
  unfold Graph.addSteps
  induction steps generalizing graph given with
  | nil => rwa [List.map_nil, List.append_nil]
  | cons step rest ih =>
    have onward := ih (filed.add output step)
    rwa [List.append_assoc] at onward

/-- Propagation changes neither the outputs of machines nor whether they have steps. -/
theorem Filed.propagate {graph : Graph} {given : List (String × Step)} (filed : graph.Filed given) :
    graph.propagate.Filed given := by
  constructor
  · intro machine member
    obtain ⟨original, isOriginal, rfl⟩ := List.mem_map.1 member
    exact filed.home original isOriginal
  · intro machine member
    obtain ⟨original, isOriginal, rfl⟩ := List.mem_map.1 member
    have names : original.propagate.steps.map Step.name = original.steps.map Step.name := original.names_propagate
    rw [Ne, ← List.map_eq_nil_iff (f := Step.name), names, List.map_eq_nil_iff]
    exact filed.filled original isOriginal
  · intro call isGiven
    obtain ⟨original, isOriginal, isType⟩ := filed.present call isGiven
    exact ⟨original.propagate, List.mem_map_of_mem isOriginal, isType⟩

section Filed

variable {graph : Graph} {given : List (String × Step)}

theorem Filed.isEmpty_iff (filed : graph.Filed given) :
    graph.isEmpty = true ↔ ∀ call ∈ given, call.2.kind = .plain := by
  rw [Graph.isEmpty_iff]
  constructor
  · intro none call isGiven
    by_contra typed
    obtain ⟨machine, isMachine, isType⟩ := filed.present call isGiven
    exact (filed.filled machine isMachine).2 ⟨call, isGiven, isType.symm, typed⟩ (none machine isMachine)
  · intro plain machine isMachine
    by_contra nonempty
    obtain ⟨call, isGiven, -, typed⟩ := (filed.filled machine isMachine).1 nonempty
    exact typed (plain call isGiven)

/-- The home of a given step has a group. -/
theorem Filed.exists_group (filed : graph.Filed given) {call : String × Step} (isGiven : call ∈ given) :
    ∃ group ∈ groupByOutput graph.ordered, home? call.2.signature.receiverType given = some group.1 := by
  obtain ⟨machine, isMachine, isType⟩ := filed.present call isGiven
  obtain ⟨group, isGroup, inGroup⟩ := StepChart.exists_group (graph.ordered_perm.mem_iff.2 isMachine)
  refine ⟨group, isGroup, ?_⟩
  rw [← isType, filed.home machine isMachine, (output_of_mem_group isGroup).2 machine inGroup]

/-- The document of a group declares a state if and only if a step that is not plain has its home there. -/
theorem Filed.declares_iff (filed : graph.Filed given) {group : String × List Machine}
    (isGroup : group ∈ groupByOutput graph.ordered) :
    declaresState (document group.2) = true ↔
      ∃ call ∈ given, call.2.kind ≠ .plain ∧ home? call.2.signature.receiverType given = some group.1 := by
  rw [declaresState_document]
  constructor
  · rintro ⟨machine, inGroup, nonempty⟩
    have isMachine : machine ∈ graph.machines := graph.ordered_perm.mem_iff.1 (mem_of_mem_group isGroup inGroup)
    obtain ⟨call, isGiven, isType, typed⟩ := (filed.filled machine isMachine).1 nonempty
    refine ⟨call, isGiven, typed, ?_⟩
    rw [isType, filed.home machine isMachine, (output_of_mem_group isGroup).2 machine inGroup]
  · rintro ⟨call, isGiven, typed, isHome⟩
    obtain ⟨machine, isMachine, isType⟩ := filed.present call isGiven
    have home := filed.home machine isMachine
    rw [isType, isHome, Option.some_inj] at home
    refine ⟨machine, ?_, (filed.filled machine isMachine).2 ⟨call, isGiven, isType.symm, typed⟩⟩
    rw [group_eq_filter graph.ordered_outputs isGroup, List.mem_filter]
    exact ⟨graph.ordered_perm.mem_iff.2 isMachine, decide_eq_true home.symm⟩

/-- Every document declares a state if and only if every output is the home of a step that is not plain. -/
theorem Filed.all_declare_iff (filed : graph.Filed given) (extension : String) :
    (∀ diagram ∈ graph.diagrams false extension, declaresState diagram.content = true) ↔
      ∀ call ∈ given, ∃ other ∈ given, other.2.kind ≠ .plain ∧
        home? other.2.signature.receiverType given = home? call.2.signature.receiverType given := by
  rw [graph.diagrams_files, List.forall_mem_map]
  constructor
  · intro declares call isGiven
    obtain ⟨group, isGroup, isHome⟩ := filed.exists_group isGiven
    rw [isHome]
    exact (filed.declares_iff isGroup).1 (declares group isGroup)
  · intro typed group isGroup
    obtain ⟨machine, inOrder, isOutput⟩ := exists_mem_of_group isGroup
    have home := filed.home machine (graph.ordered_perm.mem_iff.1 inOrder)
    obtain ⟨call, isFirst, isHome⟩ := Option.map_eq_some_iff.1 home
    have isType : call.2.signature.receiverType = machine.receiverType := by simpa using List.find?_some isFirst
    obtain ⟨other, isOther, otherTyped, sameHome⟩ := typed call (List.mem_of_find?_eq_some isFirst)
    rw [isType, home, isOutput] at sameHome
    exact (filed.declares_iff isGroup).2 ⟨other, isOther, otherTyped, sameHome⟩

end Filed

/-! ## What a graph is given -/

/-- What a graph can be given at a time: a source, or steps with their output. -/
inductive Batch where
  | source (path text : String)
  | listed (output : String) (steps : List Step)

/-- The steps of a batch, each with its output. A source that cannot be analyzed has none. -/
def Batch.given (frontend : Frontend) (options : AnalysisOptions) : Batch → List (String × Step)
  | .source path text =>
    match frontend.steps options path text with
    | .error _ => []
    | .ok steps => steps.map (Path.stem path, ·)
  | .listed output steps => steps.map (output, ·)

/-- Gives a batch to a graph. A source that cannot be analyzed leaves it as it is. -/
def take (frontend : Frontend) (options : AnalysisOptions) (graph : Graph) : Batch → Graph
  | .source path text => (graph.addSource frontend options path text).toOption.getD graph
  | .listed output steps => graph.addSteps output steps

variable (frontend : Frontend) (options : AnalysisOptions)

theorem Filed.take {graph : Graph} {given : List (String × Step)} (filed : graph.Filed given) (batch : Batch) :
    (graph.take frontend options batch).Filed (given ++ batch.given frontend options) := by
  cases batch with
  | source path text =>
    unfold Graph.take Graph.addSource Batch.given
    dsimp only
    cases frontend.steps options path text with
    | error _ => rwa [List.append_nil]
    | ok steps => exact filed.addSteps (Path.stem path) steps
  | listed output steps => exact filed.addSteps output steps

theorem Filed.takeAll {graph : Graph} {given : List (String × Step)} (filed : graph.Filed given) (batches : List Batch) :
    (batches.foldl (Graph.take frontend options) graph).Filed
      (given ++ batches.flatMap (Batch.given frontend options)) := by
  induction batches generalizing graph given with
  | nil => rwa [List.flatMap_nil, List.append_nil]
  | cons batch rest ih =>
    have onward := ih (filed.take frontend options batch)
    rwa [List.append_assoc] at onward

/-- **Which documents are empty.** The document of an output declares a state if and only if a step that is not plain
is of a receiver type whose first step was given with this output, and is empty otherwise. So no document is empty if
and only if this is so for the output of each receiver type; that some step is not plain says only that the graph is
not empty. -/
theorem documents_declare_iff (batches : List Batch) (extension : String) :
    let graph := batches.foldl (Graph.take frontend options) {}
    let given := batches.flatMap (Batch.given frontend options)
    (graph.isEmpty = true ↔ ∀ call ∈ given, call.2.kind = .plain) ∧
    ∀ drawn ∈ [graph, graph.propagate],
      (∀ diagram ∈ drawn.diagrams false extension, ∃ output,
        diagram.path = some (diagramPath output extension) ∧
        (declaresState diagram.content = true ↔
          ∃ call ∈ given, call.2.kind ≠ .plain ∧ home? call.2.signature.receiverType given = some output) ∧
        (declaresState diagram.content = false → diagram.content = "@startuml\n@enduml\n")) ∧
      ((∀ diagram ∈ drawn.diagrams false extension, declaresState diagram.content = true) ↔
        ∀ call ∈ given, ∃ other ∈ given, other.2.kind ≠ .plain ∧
          home? other.2.signature.receiverType given = home? call.2.signature.receiverType given) := by
  intro graph given
  have filed : graph.Filed given := filed_nil.takeAll frontend options batches
  refine ⟨filed.isEmpty_iff, fun drawn isDrawn => ?_⟩
  have filedDrawn : drawn.Filed given := by
    rcases List.mem_cons.1 isDrawn with rfl | propagated
    · exact filed
    · rw [List.mem_singleton.1 propagated]
      exact filed.propagate
  refine ⟨fun diagram member => ?_, filedDrawn.all_declare_iff extension⟩
  rw [drawn.diagrams_files] at member
  obtain ⟨group, isGroup, rfl⟩ := List.mem_map.1 member
  refine ⟨group.1, rfl, filedDrawn.declares_iff isGroup, fun blank => ?_⟩
  apply document_eq_empty
  by_contra nonempty
  have declares := (declaresState_document group.2).2 (by simpa using nonempty)
  exact Bool.false_ne_true (blank.symm.trans declares)

/-- A plain step, and a step of another receiver type that is not plain, each in a file of its own. -/
def helped : List Batch :=
  [.listed "helper" [{ signature := { receiverType := "Helper", name := "pick", kind := .plain } }],
   .listed "machine" [{ signature := { receiverType := "Machine", name := "run", kind := .execution } }]]

/-- A graph that is not empty may have an empty document. -/
theorem not_all_declare_helped : ¬ ∀ batches : List Batch,
    (batches.foldl (Graph.take Go.parse {}) {}).isEmpty = false →
    ∀ diagram ∈ (batches.foldl (Graph.take Go.parse {}) {}).diagrams false ".plantuml",
      declaresState diagram.content = true := by
  intro declares
  have nonempty : (helped.foldl (Graph.take Go.parse {}) {}).isEmpty = false := by decide +kernel
  have filed := filed_nil.takeAll Go.parse {} helped
  have homes := (filed.all_declare_iff ".plantuml").1 (declares helped nonempty)
  exact absurd homes (by decide +kernel)

end Graph

end StepChart
