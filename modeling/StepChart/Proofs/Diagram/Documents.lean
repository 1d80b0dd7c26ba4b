import Mathlib.Data.List.Nodup
import StepChart.Proofs.Diagram.Aliases
import StepChart.Proofs.Diagram.Arrows
import StepChart.Proofs.Handlers.InheritingEdges
import StepChart.Proofs.Machine.Graph
import StepChart.Proofs.Machine.Visits

/-!
# Documents

What the lines of a document show. Drawing a step adds lines that show it and are about no other step
(`DrawsStep`), so drawing step after step keeps what has been drawn (`Drawing.Holds`): no node is declared
twice, nothing is mentioned that is not declared in the end, and each number for an unknown target is used once.
`wellDrawn_linesOf` says what this comes to for whole machines, if their numbers tell them and their steps
apart.
-/

namespace StepChart

open Drawing

/-! ## The lines of one step -/

/-- The handlers that arrows are drawn for. -/
def Step.drawnHandlers (step : Step) : List String :=
  if step.kind = .execution then step.migrations.toList else []

/-- **What lines show of a step**: one line declares its node, one starts the machine there if the step is initial, and
the arrows that leave it are those of its handlers and of its transitions, one for each. -/
structure Shown (machine : Machine) (lines : List Line) (step : Step) : Prop where
  state : lines.filter (·.declared? = some (nodeOf machine step)) =
    [.state step.name (nodeOf machine step) step.isSubroutine]
  start : lines.filter (·.started? = some (nodeOf machine step)) =
    if machine.isInitial step then [.start (nodeOf machine step)] else []
  arrows : ∃ handlers transitions,
    lines.filter (·.left? = some (nodeOf machine step)) = handlers ++ transitions ∧
    List.Forall₂ (ShowsHandler machine (nodeOf machine step) lines) step.drawnHandlers handlers ∧
    List.Forall₂ (ShowsTransition machine (nodeOf machine step) lines) step.transitions transitions

/-- The line is not about a node. -/
structure Line.Avoids (line : Line) (node : Node) : Prop where
  declared : line.declared? ≠ some node
  started : line.started? ≠ some node
  left : line.left? ≠ some node

/-- Lines that are not about the node of a step do not change what is shown of it. -/
theorem Shown.within {machine : Machine} {step : Step} {lines : List Line} (shown : Shown machine lines step)
    (before after : List Line) (avoidsBefore : ∀ line ∈ before, line.Avoids (nodeOf machine step))
    (avoidsAfter : ∀ line ∈ after, line.Avoids (nodeOf machine step)) :
    Shown machine (before ++ lines ++ after) step := by
  have only : ∀ {view : Line → Option Node}, (∀ line ∈ before, view line ≠ some (nodeOf machine step)) →
      (∀ line ∈ after, view line ≠ some (nodeOf machine step)) →
      (before ++ lines ++ after).filter (view · = some (nodeOf machine step)) =
        lines.filter (view · = some (nodeOf machine step)) := by
    intro view noneBefore noneAfter
    have noBefore : before.filter (view · = some (nodeOf machine step)) = [] := by simpa using noneBefore
    have noAfter : after.filter (view · = some (nodeOf machine step)) = [] := by simpa using noneAfter
    rw [List.filter_append, List.filter_append, noBefore, noAfter, List.nil_append, List.append_nil]
  have within : lines ⊆ before ++ lines ++ after := fun line member =>
    List.mem_append_left _ (List.mem_append_right _ member)
  obtain ⟨handlers, transitions, arrows, showHandlers, showTransitions⟩ := shown.arrows
  constructor
  · rw [only (fun line member => (avoidsBefore line member).declared) fun line member =>
      (avoidsAfter line member).declared]
    exact shown.state
  · rw [only (fun line member => (avoidsBefore line member).started) fun line member =>
      (avoidsAfter line member).started]
    exact shown.start
  · refine ⟨handlers, transitions, ?_, showHandlers.imp fun _ _ => .mono within,
      showTransitions.imp fun _ _ => .mono within⟩
    rw [only (fun line member => (avoidsBefore line member).left) fun line member => (avoidsAfter line member).left]
    exact arrows

/-- The lines that a step begins with. -/
def heading (machine : Machine) (step : Step) : List Line :=
  [.state step.name (nodeOf machine step) step.isSubroutine]
    ++ (if step.isSubroutine then [] else [.remark (nodeOf machine step) machine.receiverType])
    ++ (if step.duplicate then [.remark (nodeOf machine step) "DUPLICATE"] else [])
    ++ (if machine.isInitial step then [.start (nodeOf machine step)] else [])

section Heading

variable (machine : Machine) (step : Step)

theorem declared_heading : (heading machine step).filterMap Line.declared? = [nodeOf machine step] := by
  unfold heading
  cases step.isSubroutine <;> cases step.duplicate <;> cases machine.isInitial step <;> rfl

theorem unknownEnd_heading : (heading machine step).filterMap Line.unknownEnd? = [] := by
  unfold heading
  cases step.isSubroutine <;> cases step.duplicate <;> cases machine.isInitial step <;> rfl

theorem mentioned_heading : ∀ line ∈ heading machine step, ∀ node ∈ line.mentioned, node = nodeOf machine step := by
  unfold heading
  cases step.isSubroutine <;> cases step.duplicate <;> cases machine.isInitial step <;> simp [Line.mentioned]

theorem left_heading : ∀ line ∈ heading machine step, line.left? = none := by
  unfold heading
  cases step.isSubroutine <;> cases step.duplicate <;> cases machine.isInitial step <;> simp [Line.left?]

theorem started_heading :
    ∀ line ∈ heading machine step, ∀ node, line.started? = some node → node = nodeOf machine step := by
  unfold heading
  cases step.isSubroutine <;> cases step.duplicate <;> cases machine.isInitial step <;> simp [Line.started?, eq_comm]

theorem filter_declared_heading : (heading machine step).filter (·.declared? = some (nodeOf machine step)) =
    [.state step.name (nodeOf machine step) step.isSubroutine] := by
  unfold heading
  cases step.isSubroutine <;> cases step.duplicate <;> cases machine.isInitial step <;> simp [Line.declared?]

theorem filter_started_heading : (heading machine step).filter (·.started? = some (nodeOf machine step)) =
    if machine.isInitial step then [.start (nodeOf machine step)] else [] := by
  unfold heading
  cases step.isSubroutine <;> cases step.duplicate <;> cases machine.isInitial step <;> simp [Line.started?]

end Heading

/-- A heading and arrows from the same node show a step. -/
theorem shown_heading {machine : Machine} {step : Step} {before after : Drawing}
    {added handlers transitions : List Line}
    (draws : Draws machine (nodeOf machine step) before after added (handlers ++ transitions))
    (showHandlers : List.Forall₂ (ShowsHandler machine (nodeOf machine step) added) step.drawnHandlers handlers)
    (showTransitions :
      List.Forall₂ (ShowsTransition machine (nodeOf machine step) added) step.transitions transitions) :
    Shown machine (heading machine step ++ added) step := by
  have within : added ⊆ heading machine step ++ added := List.subset_append_right _ _
  refine ⟨?_, ?_, handlers, transitions, ?_, showHandlers.imp fun _ _ => .mono within,
    showTransitions.imp fun _ _ => .mono within⟩
  · have none : added.filter (·.declared? = some (nodeOf machine step)) = [] := by
      rw [List.filter_eq_nil_iff]
      intro line member declares
      exact Bool.noConfusion (draws.known_of_declared member (of_decide_eq_true declares))
    rw [List.filter_append, none, List.append_nil, filter_declared_heading]
  · have none : added.filter (·.started? = some (nodeOf machine step)) = [] := by
      rw [List.filter_eq_nil_iff]
      intro line member starts
      rw [draws.unstarted line member] at starts
      exact Bool.noConfusion starts
    rw [List.filter_append, none, List.append_nil, filter_started_heading]
  · have none : (heading machine step).filter (·.left? = some (nodeOf machine step)) = [] := by
      rw [List.filter_eq_nil_iff]
      intro line member leaves
      rw [left_heading machine step line member] at leaves
      exact Bool.noConfusion leaves
    rw [List.filter_append, none, List.nil_append, draws.filter_left]

/-- **What drawing a step does**: it adds lines that show the step and are about no other. -/
structure DrawsStep (machine : Machine) (step : Step) (before after : Drawing) (added : List Line) : Prop where
  lines : after.lines = before.lines ++ added
  le : before.unknown ≤ after.unknown
  declared : added.filterMap Line.declared? = nodeOf machine step :: unknownNodes machine before.unknown after.unknown
  ends : added.filterMap Line.unknownEnd? = unknownNodes machine before.unknown after.unknown
  sources : ∀ line ∈ added, ∀ node, line.left? = some node ∨ line.started? = some node → node = nodeOf machine step
  mentioned : ∀ line ∈ added, ∀ node ∈ line.mentioned, node ∈ added.filterMap Line.declared? ∨
    ∃ target ∈ machine.steps, node = nodeOf machine target
  shown : Shown machine added step

theorem exists_drawsStep {machine : Machine} {step : Step} (named : "" ∉ step.migrations)
    (finds : machine.Finds step.transitions) (drawing : Drawing) :
    ∃ added, DrawsStep machine step drawing (drawStep machine drawing step) added := by
  have namedDrawn : "" ∉ step.drawnHandlers := by
    unfold Step.drawnHandlers
    split
    · exact named
    · exact List.not_mem_nil
  obtain ⟨first, handlers, drawnFirst, showHandlers⟩ :=
    draws_handlers (nodeOf machine step) (drawing.draw (heading machine step)) namedDrawn
  obtain ⟨second, transitions, drawnSecond, showTransitions⟩ :=
    draws_transitions (nodeOf machine step)
      (step.drawnHandlers.foldl (drawHandler machine (nodeOf machine step))
        (drawing.draw (heading machine step))) rfl finds
  have draws := drawnFirst.trans drawnSecond
  have declared : (heading machine step ++ (first ++ second)).filterMap Line.declared? =
      nodeOf machine step :: unknownNodes machine drawing.unknown (drawStep machine drawing step).unknown := by
    rw [List.filterMap_append, declared_heading, draws.declared]
    rfl
  refine ⟨heading machine step ++ (first ++ second), ?_, draws.le, declared, ?_, ?_, ?_, ?_⟩
  · rw [← List.append_assoc]
    exact draws.lines
  · rw [List.filterMap_append, unknownEnd_heading, List.nil_append]
    exact draws.ends
  · intro line member node isSource
    rcases List.mem_append.1 member with heads | later
    · rw [left_heading machine step line heads] at isSource
      exact started_heading machine step line heads node (by simpa using isSource)
    · rw [draws.unstarted line later] at isSource
      exact draws.eq_of_left later (by simpa using isSource)
  · rw [declared]
    intro line member node isMentioned
    rcases List.mem_append.1 member with heads | later
    · rw [mentioned_heading machine step line heads node isMentioned]
      exact .inl List.mem_cons_self
    · rcases draws.mentioned line later node isMentioned with rfl | target | isUnknown
      · exact .inl List.mem_cons_self
      · exact .inr target
      · exact .inl (List.mem_cons_of_mem _ isUnknown)
  · refine shown_heading draws (showHandlers.imp fun _ _ => .mono ?_) (showTransitions.imp fun _ _ => .mono ?_)
    · exact List.subset_append_left _ _
    · exact List.subset_append_right _ _

/-- What is added for a step is not about the node of another. -/
theorem DrawsStep.avoids {machine : Machine} {step : Step} {before after : Drawing} {added : List Line}
    (draws : DrawsStep machine step before after added) {node : Node} (known : node.known = true)
    (differs : node ≠ nodeOf machine step) : ∀ line ∈ added, line.Avoids node := by
  intro line member
  refine ⟨fun declares => ?_, fun starts => ?_, fun leaves => ?_⟩
  · have isDeclared : node ∈ added.filterMap Line.declared? := List.mem_filterMap.2 ⟨line, member, declares⟩
    rw [draws.declared, List.mem_cons] at isDeclared
    have unknown := known_of_mem_unknownNodes (isDeclared.resolve_left differs)
    rw [known] at unknown
    exact Bool.noConfusion unknown
  · exact differs (draws.sources line member node (.inr starts))
  · exact differs (draws.sources line member node (.inl leaves))

/-! ## The lines of several steps -/

/-- The nodes of steps. -/
def nodesOf (drawn : List (Machine × Step)) : List Node := drawn.map fun entry => nodeOf entry.1 entry.2

theorem nodesOf_concat (drawn : List (Machine × Step)) (machine : Machine) (step : Step) :
    nodesOf (drawn ++ [(machine, step)]) = nodesOf drawn ++ [nodeOf machine step] := List.map_append

/-- **What a drawing holds** once some steps are drawn. The nodes that it declares are those of the steps and, numbered
from one on, those for unknown targets, at each of which one arrow ends. -/
structure Drawing.Holds (drawing : Drawing) (drawn : List (Machine × Step)) : Prop where
  known : (drawing.lines.filterMap Line.declared?).filter (·.known) = nodesOf drawn
  unknown : ((drawing.lines.filterMap Line.declared?).filter (!·.known)).map Node.number = List.range' 1 drawing.unknown
  ends : (drawing.lines.filterMap Line.unknownEnd?).map Node.number = List.range' 1 drawing.unknown
  mentioned : ∀ line ∈ drawing.lines, ∀ node ∈ line.mentioned, node ∈ drawing.lines.filterMap Line.declared? ∨
    ∃ entry ∈ drawn, ∃ step ∈ entry.1.steps, node = nodeOf entry.1 step
  sources : ∀ line ∈ drawing.lines, ∀ node, line.left? = some node ∨ line.started? = some node → node ∈ nodesOf drawn
  shown : ∀ entry ∈ drawn, Shown entry.1 drawing.lines entry.2

theorem Drawing.holds_nil : Drawing.Holds {} [] := by
  constructor <;> simp [nodesOf]

theorem map_number_unknownNodes (machine : Machine) (first last : Nat) :
    (unknownNodes machine first last).map Node.number = List.range' (first + 1) (last - first) := by
  rw [unknownNodes, List.map_map]
  exact List.map_id _

theorem range'_unknownNodes (machine : Machine) {first last : Nat} (le : first ≤ last) :
    List.range' 1 first ++ (unknownNodes machine first last).map Node.number = List.range' 1 last := by
  have next : first + 1 = 1 + 1 * first := by omega
  have count : first + (last - first) = last := by omega
  rw [map_number_unknownNodes, next, List.range'_append, count]

/-- Nothing that is drawn is about a step that is not. -/
theorem Drawing.Holds.avoids {drawing : Drawing} {drawn : List (Machine × Step)} (holds : drawing.Holds drawn)
    {node : Node} (known : node.known = true) (fresh : node ∉ nodesOf drawn) :
    ∀ line ∈ drawing.lines, line.Avoids node := by
  intro line member
  refine ⟨fun declares => ?_, fun starts => ?_, fun leaves => ?_⟩
  · have isDeclared : node ∈ drawing.lines.filterMap Line.declared? := List.mem_filterMap.2 ⟨line, member, declares⟩
    have isKnown : node ∈ (drawing.lines.filterMap Line.declared?).filter (·.known) :=
      List.mem_filter.2 ⟨isDeclared, known⟩
    rw [holds.known] at isKnown
    exact fresh isKnown
  · exact fresh (holds.sources line member node (.inr starts))
  · exact fresh (holds.sources line member node (.inl leaves))

theorem Drawing.Holds.step {drawing after : Drawing} {drawn : List (Machine × Step)} (holds : drawing.Holds drawn)
    {machine : Machine} {step : Step} {added : List Line} (draws : DrawsStep machine step drawing after added)
    (fresh : nodeOf machine step ∉ nodesOf drawn) : after.Holds (drawn ++ [(machine, step)]) := by
  have declared : after.lines.filterMap Line.declared? = drawing.lines.filterMap Line.declared? ++
      nodeOf machine step :: unknownNodes machine drawing.unknown after.unknown := by
    rw [draws.lines, List.filterMap_append, draws.declared]
  have allUnknown : ∀ node ∈ unknownNodes machine drawing.unknown after.unknown, node.known = false := fun node =>
    known_of_mem_unknownNodes
  constructor
  · have none : (unknownNodes machine drawing.unknown after.unknown).filter (·.known) = [] := by
      simpa using allUnknown
    rw [declared, List.filter_append, holds.known, List.filter_cons_of_pos rfl, none, nodesOf_concat]
  · have all : (unknownNodes machine drawing.unknown after.unknown).filter (!·.known) =
        unknownNodes machine drawing.unknown after.unknown := by
      simpa using allUnknown
    rw [declared, List.filter_append, List.filter_cons_of_neg (by simp [nodeOf]), all, List.map_append, holds.unknown,
      range'_unknownNodes machine draws.le]
  · rw [draws.lines, List.filterMap_append, draws.ends, List.map_append, holds.ends,
      range'_unknownNodes machine draws.le]
  · rw [draws.lines, List.filterMap_append]
    intro line member node isMentioned
    rcases List.mem_append.1 member with old | new
    · rcases holds.mentioned line old node isMentioned with isDeclared | ⟨entry, isDrawn, target⟩
      · exact .inl (List.mem_append_left _ isDeclared)
      · exact .inr ⟨entry, List.mem_append_left _ isDrawn, target⟩
    · rcases draws.mentioned line new node isMentioned with isDeclared | target
      · exact .inl (List.mem_append_right _ isDeclared)
      · exact .inr ⟨(machine, step), List.mem_append_right _ List.mem_cons_self, target⟩
  · rw [nodesOf_concat, draws.lines]
    intro line member node isSource
    rcases List.mem_append.1 member with old | new
    · exact List.mem_append_left _ (holds.sources line old node isSource)
    · exact List.mem_append_right _ (List.mem_singleton.2 (draws.sources line new node isSource))
  · rw [draws.lines]
    intro entry isDrawn
    rcases List.mem_append.1 isDrawn with old | new
    · have isOld : nodeOf entry.1 entry.2 ∈ nodesOf drawn := List.mem_map_of_mem old
      have differs : nodeOf entry.1 entry.2 ≠ nodeOf machine step := fun same => fresh (same ▸ isOld)
      exact (holds.shown entry old).within [] _ (by simp) (draws.avoids rfl differs)
    · rw [List.mem_singleton.1 new]
      have within := draws.shown.within _ [] (holds.avoids rfl fresh) (by simp)
      rwa [List.append_nil] at within

/-- The steps of machines, in the order in which they are drawn. -/
def stepsOf (machines : List Machine) : List (Machine × Step) :=
  machines.flatMap fun machine => machine.steps.map (machine, ·)

theorem Drawing.Holds.drawSteps {drawing : Drawing} {drawn : List (Machine × Step)} (holds : drawing.Holds drawn)
    {machine : Machine} {steps : List Step} (named : ∀ step ∈ steps, "" ∉ step.migrations)
    (finds : ∀ step ∈ steps, machine.Finds step.transitions)
    (distinct : (nodesOf (drawn ++ steps.map (machine, ·))).Nodup) :
    (steps.foldl (Drawing.drawStep machine) drawing).Holds (drawn ++ steps.map (machine, ·)) := by
  induction steps generalizing drawing drawn with
  | nil => rwa [List.map_nil, List.append_nil]
  | cons step rest ih =>
    rw [List.map_cons, List.append_cons] at distinct ⊢
    have first : (nodesOf (drawn ++ [(machine, step)])).Nodup :=
      distinct.sublist ((List.sublist_append_left _ _).map _)
    have fresh : nodeOf machine step ∉ nodesOf drawn := by
      rw [nodesOf_concat, List.nodup_append] at first
      exact fun member => first.2.2 _ member _ (List.mem_singleton.2 rfl) rfl
    obtain ⟨added, draws⟩ := exists_drawsStep (named step List.mem_cons_self) (finds step List.mem_cons_self) drawing
    exact ih (holds.step draws fresh) (fun other member => named other (List.mem_cons_of_mem _ member))
      (fun other member => finds other (List.mem_cons_of_mem _ member)) distinct

/-- What machines need to be drawn well. -/
structure Drawable (machines : List Machine) : Prop where
  sequences : (machines.map Machine.sequence).Nodup
  numbers : ∀ machine ∈ machines, (machine.steps.map Step.number).Nodup
  named : ∀ machine ∈ machines, machine.HandlersNamed
  finds : ∀ machine ∈ machines, ∀ step ∈ machine.steps, machine.Finds step.transitions

/-- Numbers tell the steps of a machine apart, and sequences the machines. -/
theorem Drawable.nodup_nodesOf {machines : List Machine} (drawable : Drawable machines) :
    (nodesOf (stepsOf machines)).Nodup := by
  have nodes : nodesOf (stepsOf machines) = machines.flatMap fun machine => machine.steps.map (nodeOf machine) := by
    rw [nodesOf, stepsOf, List.map_flatMap]
    simp only [List.map_map]
    rfl
  rw [nodes, List.nodup_flatMap]
  constructor
  · intro machine member
    refine List.Nodup.of_map Node.number ?_
    rw [List.map_map]
    exact drawable.numbers machine member
  · refine (List.pairwise_map.1 drawable.sequences).imp fun {first second} differs node isFirst isSecond => ?_
    obtain ⟨_, -, rfl⟩ := List.mem_map.1 isFirst
    obtain ⟨_, -, same⟩ := List.mem_map.1 isSecond
    exact differs (congrArg Node.machine same).symm

theorem Drawable.sublist {machines part : List Machine} (drawable : Drawable machines)
    (isPart : part.Sublist machines) :
    Drawable part where
  sequences := drawable.sequences.sublist (isPart.map _)
  numbers machine member := drawable.numbers machine (isPart.subset member)
  named machine member := drawable.named machine (isPart.subset member)
  finds machine member := drawable.finds machine (isPart.subset member)

theorem Drawable.perm {machines others : List Machine} (drawable : Drawable machines) (perm : others.Perm machines) :
    Drawable others where
  sequences := (perm.map _).nodup_iff.2 drawable.sequences
  numbers machine member := drawable.numbers machine (perm.subset member)
  named machine member := drawable.named machine (perm.subset member)
  finds machine member := drawable.finds machine (perm.subset member)

theorem Drawing.Holds.drawMachines {drawing : Drawing} (done : List Machine) {machines : List Machine}
    (holds : drawing.Holds (stepsOf done)) (drawable : Drawable (done ++ machines)) :
    (machines.foldl Drawing.drawMachine drawing).Holds (stepsOf (done ++ machines)) := by
  induction machines generalizing drawing done with
  | nil => rwa [List.append_nil]
  | cons machine rest ih =>
    have isMachine : machine ∈ done ++ [machine] ++ rest := by simp
    have steps : stepsOf (done ++ [machine]) = stepsOf done ++ machine.steps.map (machine, ·) := by
      simp [stepsOf]
    have split : done ++ machine :: rest = done ++ [machine] ++ rest := by simp
    rw [split] at drawable
    have distinct := (drawable.sublist (List.sublist_append_left _ _)).nodup_nodesOf
    rw [steps] at distinct
    have next := holds.drawSteps (drawable.named machine isMachine) (drawable.finds machine isMachine) distinct
    rw [← steps] at next
    rw [split]
    exact ih _ next drawable

/-- **Lines that draw machines well.** -/
structure WellDrawn (machines : List Machine) (lines : List Line) : Prop where
  /-- No alias is declared twice. -/
  declared : ((lines.filterMap Line.declared?).map Node.alias).Nodup
  /-- What an arrow joins, and what a remark is about, is declared. -/
  mentioned : ∀ line ∈ lines, ∀ node ∈ line.mentioned, node ∈ lines.filterMap Line.declared?
  /-- No two arrows to unknown targets end at the same alias. -/
  fresh : ((lines.filterMap Line.unknownEnd?).map Node.alias).Nodup
  shown : ∀ machine ∈ machines, ∀ step ∈ machine.steps, Shown machine lines step

theorem wellDrawn_linesOf {machines : List Machine} (drawable : Drawable machines) :
    WellDrawn machines (linesOf machines) := by
  have holds : Drawing.Holds (machines.foldl Drawing.drawMachine {}) (stepsOf machines) :=
    Drawing.Holds.drawMachines [] Drawing.holds_nil drawable
  have declaredSteps : ∀ machine ∈ machines, ∀ step ∈ machine.steps,
      nodeOf machine step ∈ (linesOf machines).filterMap Line.declared? := by
    intro machine isMachine step isStep
    have isNode : nodeOf machine step ∈ nodesOf (stepsOf machines) :=
      List.mem_map.2 ⟨(machine, step), List.mem_flatMap.2 ⟨machine, isMachine, List.mem_map_of_mem isStep⟩, rfl⟩
    rw [← holds.known] at isNode
    exact List.mem_of_mem_filter isNode
  constructor
  · refine List.Nodup.map Node.alias_injective ?_
    rw [← (List.filter_append_perm (·.known) ((linesOf machines).filterMap Line.declared?)).nodup_iff,
      List.nodup_append]
    refine ⟨?_, ?_, ?_⟩
    · rw [linesOf, holds.known]
      exact drawable.nodup_nodesOf
    · refine List.Nodup.of_map Node.number ?_
      rw [linesOf, holds.unknown]
      exact List.nodup_range'
    · rintro node isKnown _ isUnknown rfl
      have known := (List.mem_filter.1 isKnown).2
      have unknown := (List.mem_filter.1 isUnknown).2
      rw [known] at unknown
      exact Bool.noConfusion unknown
  · intro line member node isMentioned
    rcases holds.mentioned line member node isMentioned with isDeclared | ⟨entry, isDrawn, step, isStep, rfl⟩
    · exact isDeclared
    · obtain ⟨machine, isMachine, isEntry⟩ := List.mem_flatMap.1 isDrawn
      obtain ⟨_, _, rfl⟩ := List.mem_map.1 isEntry
      exact declaredSteps machine isMachine step isStep
  · refine List.Nodup.map Node.alias_injective (List.Nodup.of_map Node.number ?_)
    rw [linesOf, holds.ends]
    exact List.nodup_range'
  · intro machine isMachine step isStep
    exact holds.shown (machine, step) (List.mem_flatMap.2 ⟨machine, isMachine, List.mem_map_of_mem isStep⟩)

end StepChart
