import StepChart.Proofs.Diagram.Documents
import StepChart.Proofs.Diagram.EmptyDocuments

/-!
# One document or several

The nodes for unknown targets are numbered through a document. A drawing that goes on after another one is therefore
what it would be alone, with the number of nodes drawn before added to its own (`Drawing.followedBy`), and every step
of drawing respects this. So the document for the console consists of the bodies of the documents for the files, each
numbered on from the ones before it (`console_joins_documents`).
-/

namespace StepChart

/-! ## Renumbered lines -/

/-- The node with `offset` added to its number, if it is one for an unknown target. -/
def Node.advance (offset : Nat) (node : Node) : Node :=
  if node.known then node else { node with number := node.number + offset }

theorem Node.advance_of_known (offset : Nat) {node : Node} (known : node.known = true) : node.advance offset = node :=
  if_pos known

@[simp] theorem Node.known_advance (offset : Nat) (node : Node) : (node.advance offset).known = node.known := by
  unfold advance
  split <;> rfl

namespace Line

/-- The line with `offset` added to the numbers of the nodes for unknown targets in it. -/
def advance (offset : Nat) : Line → Line
  | .state name node subroutine => .state name (node.advance offset) subroutine
  | .remark node text => .remark (node.advance offset) text
  | .start node => .start (node.advance offset)
  | .stop node note => .stop (node.advance offset) note
  | .arrow source style target note => .arrow (source.advance offset) style (target.advance offset) note

/-- All nodes that a line is about. -/
def nodes : Line → List Node
  | .state _ node _ | .remark node _ | .start node | .stop node _ => [node]
  | .arrow source _ target _ => [source, target]

/-- A line about registered steps alone is left as it is. -/
theorem advance_of_known (offset : Nat) {line : Line} (known : ∀ node ∈ line.nodes, node.known = true) :
    line.advance offset = line := by
  cases line <;> simp_all [advance, nodes, Node.advance_of_known]

theorem mem_nodes_of_unknownEnd? {line : Line} {node : Node} (ends : line.unknownEnd? = some node) :
    node ∈ line.nodes ∧ node.known = false := by
  cases line with
  | arrow source style target note =>
    simp only [unknownEnd?, Option.ite_none_left_eq_some, Option.some.injEq] at ends
    obtain ⟨unknown, rfl⟩ := ends
    exact ⟨List.mem_cons_of_mem _ List.mem_cons_self, by simpa using unknown⟩
  | state | remark | start | stop => cases ends

theorem nodes_advance (offset : Nat) (line : Line) : (line.advance offset).nodes = line.nodes.map (Node.advance offset) := by
  cases line <;> rfl

theorem unknownEnd?_advance (offset : Nat) (line : Line) :
    (line.advance offset).unknownEnd? = line.unknownEnd?.map (Node.advance offset) := by
  cases line with
  | arrow source style target note =>
    simp only [advance, unknownEnd?, Node.known_advance]
    split <;> rfl
  | state | remark | start | stop => rfl

end Line

/-! ## Drawing on -/

namespace Drawing

/-- One drawing after another: the unknown targets of the second are numbered on from those of the first. -/
def followedBy (first second : Drawing) : Drawing where
  lines := first.lines ++ second.lines.map (Line.advance first.unknown)
  unknown := first.unknown + second.unknown

section Step

variable (first second : Drawing) (machine : Machine)

theorem followedBy_draw (lines : List Line) :
    (first.followedBy second).draw (lines.map (Line.advance first.unknown)) = first.followedBy (second.draw lines) := by
  simp [followedBy, draw]

theorem followedBy_draw_known {lines : List Line} (known : ∀ line ∈ lines, ∀ node ∈ line.nodes, node.known = true) :
    (first.followedBy second).draw lines = first.followedBy (second.draw lines) := by
  have same : lines.map (Line.advance first.unknown) = lines.map id :=
    List.map_congr_left fun line member => Line.advance_of_known _ (known line member)
  rw [← followedBy_draw, same, List.map_id]

theorem followedBy_nodeFor (name : String) (target : Option Step) :
    nodeFor machine name target (first.followedBy second) =
      ((nodeFor machine name target second).1.advance first.unknown,
        first.followedBy (nodeFor machine name target second).2) := by
  cases target with
  | some step => rfl
  | none =>
    have node : Node.advance first.unknown ⟨machine.sequence, false, second.unknown + 1⟩ =
        ⟨machine.sequence, false, first.unknown + second.unknown + 1⟩ := by
      simp [Node.advance]
      omega
    by_cases unnamed : name.isEmpty
    · simp [nodeFor, drawUnknown, followedBy, draw, unnamed, Line.advance, node]
      omega
    · simp [nodeFor, drawUnknown, followedBy, draw, unnamed, Line.advance, node]
      omega

/-- An arrow from a registered step to a target, which is numbered on if it is unknown. -/
theorem followedBy_arrow {source : Node} (known : source.known = true) (name : String) (target : Option Step)
    (style : Arrow) (note : String) :
    (nodeFor machine name target (first.followedBy second)).2.draw
        [.arrow source style (nodeFor machine name target (first.followedBy second)).1 note] =
      first.followedBy ((nodeFor machine name target second).2.draw
        [.arrow source style (nodeFor machine name target second).1 note]) := by
  rw [followedBy_nodeFor, ← followedBy_draw]
  simp only [List.map_cons, List.map_nil, Line.advance, Node.advance_of_known _ known]

theorem followedBy_drawHandler {source : Node} (known : source.known = true) (migration : String) :
    drawHandler machine source (first.followedBy second) migration =
      first.followedBy (drawHandler machine source second migration) :=
  followedBy_arrow first second machine known migration (machine.find? migration) .dotted ""

theorem followedBy_drawTransition {source : Node} (known : source.known = true) (transition : Transition) :
    drawTransition machine source (first.followedBy second) transition =
      first.followedBy (drawTransition machine source second transition) := by
  unfold drawTransition
  dsimp only
  split
  · exact followedBy_draw_known first second (by simp [Line.nodes, known])
  · split
    · exact followedBy_draw_known first second (by simp [Line.nodes, known])
    · exact followedBy_arrow first second machine known _ _ _ _

end Step

theorem drawStep_eq (machine : Machine) (drawing : Drawing) (step : Step) :
    drawStep machine drawing step = step.transitions.foldl (drawTransition machine (nodeOf machine step))
      (step.drawnHandlers.foldl (drawHandler machine (nodeOf machine step)) (drawing.draw (heading machine step))) :=
  rfl

theorem known_heading (machine : Machine) (step : Step) :
    ∀ line ∈ heading machine step, ∀ node ∈ line.nodes, node.known = true := by
  unfold heading
  cases step.isSubroutine <;> cases step.duplicate <;> cases machine.isInitial step <;> simp [Line.nodes, nodeOf]

/-- Drawing a step goes on from what is drawn before, as if nothing were. -/
theorem followedBy_drawStep (first second : Drawing) (machine : Machine) (step : Step) :
    drawStep machine (first.followedBy second) step = first.followedBy (drawStep machine second step) := by
  have handlers : ∀ drawing : Drawing,
      step.drawnHandlers.foldl (drawHandler machine (nodeOf machine step)) (first.followedBy drawing) =
        first.followedBy (step.drawnHandlers.foldl (drawHandler machine (nodeOf machine step)) drawing) :=
    fun drawing => List.foldl_hom first.followedBy fun drawing => followedBy_drawHandler first drawing machine rfl
  have transitions : ∀ drawing : Drawing,
      step.transitions.foldl (drawTransition machine (nodeOf machine step)) (first.followedBy drawing) =
        first.followedBy (step.transitions.foldl (drawTransition machine (nodeOf machine step)) drawing) :=
    fun drawing => List.foldl_hom first.followedBy fun drawing => followedBy_drawTransition first drawing machine rfl
  rw [drawStep_eq, drawStep_eq, followedBy_draw_known first second (known_heading machine step), handlers, transitions]

theorem followedBy_drawMachine (first second : Drawing) (machine : Machine) :
    drawMachine (first.followedBy second) machine = first.followedBy (drawMachine second machine) :=
  List.foldl_hom first.followedBy fun drawing step => followedBy_drawStep first drawing machine step

/-- **Machines are drawn after others as they are drawn alone**, apart from the numbers of unknown targets. -/
theorem foldl_drawMachine (drawing : Drawing) (machines : List Machine) :
    machines.foldl drawMachine drawing = drawing.followedBy (machines.foldl drawMachine {}) := by
  have start : drawing.followedBy {} = drawing := by simp [followedBy]
  have run : machines.foldl drawMachine (drawing.followedBy {}) = drawing.followedBy (machines.foldl drawMachine {}) :=
    List.foldl_hom drawing.followedBy (followedBy_drawMachine drawing)
  rwa [start] at run

/-! ## Numbers of unknown targets -/

/-- The nodes for unknown targets among lines: one arrow ends at each. -/
def unknownsIn (lines : List Line) : List Node := lines.filterMap Line.unknownEnd?

/-- **The nodes for unknown targets are numbered from one on**, and there are none but the ends of arrows. -/
structure Tallied (drawing : Drawing) : Prop where
  numbers : (unknownsIn drawing.lines).map Node.number = List.range' 1 drawing.unknown
  ends : ∀ line ∈ drawing.lines, ∀ node ∈ line.nodes, node.known = false → node ∈ unknownsIn drawing.lines

namespace Tallied

variable {drawing : Drawing}

theorem empty : Tallied {} := ⟨rfl, fun _ member => absurd member List.not_mem_nil⟩

theorem unknownEnd?_of_known {line : Line} (known : ∀ node ∈ line.nodes, node.known = true) :
    line.unknownEnd? = none := by
  cases line with
  | arrow source style target note => simp_all [Line.unknownEnd?, Line.nodes]
  | state | remark | start | stop => rfl

/-- Lines about registered steps change no number. -/
theorem draw (tallied : drawing.Tallied) {lines : List Line}
    (known : ∀ line ∈ lines, ∀ node ∈ line.nodes, node.known = true) : (drawing.draw lines).Tallied := by
  have none : lines.filterMap Line.unknownEnd? = [] :=
    List.filterMap_eq_nil_iff.2 fun line member => unknownEnd?_of_known (known line member)
  have same : unknownsIn (drawing.draw lines).lines = unknownsIn drawing.lines := by
    unfold unknownsIn Drawing.draw
    rw [List.filterMap_append, none, List.append_nil]
  refine ⟨?_, ?_⟩
  · rw [same]
    exact tallied.numbers
  · rw [same]
    intro line member node isNode unknown
    rcases List.mem_append.1 member with old | new
    · exact tallied.ends line old node isNode unknown
    · rw [known line new node isNode] at unknown
      exact Bool.noConfusion unknown

/-- The lines that come with an arrow to an unknown target. -/
def unknownArrow (node : Node) (name receiverType : String) (source : Node) (style : Arrow) (note : String) : List Line :=
  (if name.isEmpty then [] else [.state name node false]) ++
    [.remark node receiverType, .remark node "UNKNOWN", .arrow source style node note]

section UnknownArrow

variable {node source : Node} (name receiverType : String) (style : Arrow) (note : String)

theorem unknownsIn_unknownArrow (unknown : node.known = false) :
    unknownsIn (unknownArrow node name receiverType source style note) = [node] := by
  unfold unknownArrow
  split <;> simp [unknownsIn, List.filterMap_cons, Line.unknownEnd?, unknown]

theorem nodes_unknownArrow : ∀ line ∈ unknownArrow node name receiverType source style note, ∀ other ∈ line.nodes,
    other = source ∨ other = node := by
  unfold unknownArrow
  split <;> simp [Line.nodes]

end UnknownArrow

/-- An arrow to an unknown target comes with the next number. -/
theorem arrow (tallied : drawing.Tallied) (machine : Machine) {source : Node} (known : source.known = true)
    (name : String) (target : Option Step) (style : Arrow) (note : String) :
    ((nodeFor machine name target drawing).2.draw
      [.arrow source style (nodeFor machine name target drawing).1 note]).Tallied := by
  cases target with
  | some step => exact tallied.draw (by simp [Line.nodes, known, nodeFor, nodeOf])
  | none =>
    let node : Node := ⟨machine.sequence, false, drawing.unknown + 1⟩
    let added := unknownArrow node name machine.receiverType source style note
    have lines : ((nodeFor machine name none drawing).2.draw
        [.arrow source style (nodeFor machine name none drawing).1 note]).lines = drawing.lines ++ added := by
      simp [nodeFor, drawUnknown, Drawing.draw, added, unknownArrow, node]
    have both : unknownsIn (drawing.lines ++ added) = unknownsIn drawing.lines ++ [node] := by
      have one : unknownsIn added = [node] := unknownsIn_unknownArrow name _ style note rfl
      rw [← one]
      exact List.filterMap_append
    constructor
    · rw [lines, both, List.map_append, tallied.numbers]
      show List.range' 1 drawing.unknown ++ [drawing.unknown + 1] = List.range' 1 (drawing.unknown + 1)
      rw [List.range'_concat, Nat.one_mul, Nat.add_comm]
    · rw [lines, both]
      intro line member other isNode unknown
      rcases List.mem_append.1 member with old | new
      · exact List.mem_append_left _ (tallied.ends line old other isNode unknown)
      · rcases nodes_unknownArrow name _ style note line new other isNode with rfl | rfl
        · rw [known] at unknown
          exact Bool.noConfusion unknown
        · exact List.mem_append_right _ List.mem_cons_self

theorem foldl {α : Type} {run : Drawing → α → Drawing} (step : ∀ {drawing : Drawing} (item : α), drawing.Tallied →
    (run drawing item).Tallied) (items : List α) (tallied : drawing.Tallied) : (items.foldl run drawing).Tallied := by
  induction items generalizing drawing with
  | nil => exact tallied
  | cons item rest ih => exact ih (step item tallied)

theorem drawStep (machine : Machine) (step : Step) (tallied : drawing.Tallied) :
    (drawStep machine drawing step).Tallied := by
  rw [drawStep_eq]
  apply foldl
  · intro drawing transition tallied
    unfold drawTransition
    dsimp only
    split
    · exact tallied.draw (by simp [Line.nodes, nodeOf])
    · split
      · exact tallied.draw (by simp [Line.nodes, nodeOf])
      · exact tallied.arrow machine rfl _ _ _ _
  · apply foldl
    · intro drawing migration tallied
      exact tallied.arrow machine rfl _ _ _ _
    · exact tallied.draw (known_heading machine step)

end Tallied

theorem tallied_foldl_drawMachine (machines : List Machine) : Tallied (machines.foldl drawMachine {}) :=
  Tallied.foldl (fun machine tallied => tallied.foldl (fun step => Tallied.drawStep machine step) machine.steps)
    machines .empty

end Drawing

open Drawing

/-! ## Bodies of documents -/

/-- The lines that draw some machines if `first` unknown targets were drawn before. -/
def linesFrom (first : Nat) (machines : List Machine) : List Line :=
  (machines.foldl drawMachine { unknown := first }).lines

/-- The text that draws some machines if `first` unknown targets were drawn before. -/
def bodyFrom (first : Nat) (machines : List Machine) : String :=
  joinLines ((linesFrom first machines).map Line.text)

/-- How many unknown targets the lines of some machines have. -/
def unknownCount (machines : List Machine) : Nat := (unknownsIn (linesFrom 0 machines)).length

theorem unknown_foldl_drawMachine (machines : List Machine) :
    (machines.foldl drawMachine {}).unknown = unknownCount machines := by
  have lengths := congrArg List.length (tallied_foldl_drawMachine machines).numbers
  rw [List.length_map, List.length_range'] at lengths
  exact lengths.symm

theorem linesFrom_eq (first : Nat) (machines : List Machine) :
    linesFrom first machines = (linesFrom 0 machines).map (Line.advance first) := by
  unfold linesFrom
  rw [foldl_drawMachine]
  rfl

theorem unknownsIn_linesFrom (first : Nat) (machines : List Machine) :
    unknownsIn (linesFrom first machines) = (unknownsIn (linesFrom 0 machines)).map (Node.advance first) := by
  rw [linesFrom_eq]
  unfold unknownsIn
  rw [List.filterMap_map, List.map_filterMap]
  congr 1
  funext line
  exact Line.unknownEnd?_advance first line

theorem joinLines_append (lines more : List String) : joinLines (lines ++ more) = joinLines lines ++ joinLines more := by
  apply String.toList_inj.1
  simp [toList_joinLines]

theorem document_eq (machines : List Machine) : document machines = "@startuml\n" ++ bodyFrom 0 machines ++ "@enduml\n" := by
  unfold document
  rw [joinLines_append, joinLines_append]
  rfl

/-- The body of machines that are given in parts. -/
theorem bodyFrom_append (first : Nat) (machines more : List Machine) :
    bodyFrom first (machines ++ more) = bodyFrom first machines ++ bodyFrom (first + unknownCount machines) more := by
  have lines : linesFrom first (machines ++ more) =
      linesFrom first machines ++ linesFrom (first + unknownCount machines) more := by
    have before : (machines.foldl drawMachine { unknown := first }).unknown = first + unknownCount machines := by
      rw [foldl_drawMachine, ← unknown_foldl_drawMachine]
      rfl
    rw [linesFrom_eq (first + _), ← before]
    unfold linesFrom
    rw [List.foldl_append, foldl_drawMachine (machines.foldl drawMachine _)]
    rfl
  unfold bodyFrom
  rw [lines, List.map_append, joinLines_append]

/-- The number of unknown targets in several groups of machines, each drawn alone. -/
def unknownTotal : List (String × List Machine) → Nat
  | [] => 0
  | group :: groups => unknownCount group.2 + unknownTotal groups

/-- The body of machines that are given in groups, each numbered on from the ones before it. -/
theorem bodyFrom_groups (first : Nat) (groups : List (String × List Machine)) :
    bodyFrom first (groups.map (·.2)).flatten = String.join (groups.mapIdx fun index group =>
      bodyFrom (first + unknownTotal (groups.take index)) group.2) := by
  induction groups generalizing first with
  | nil => rfl
  | cons group rest ih =>
    rw [List.map_cons, List.flatten_cons, bodyFrom_append, ih, List.mapIdx_cons, String.join_cons]
    simp [unknownTotal, Nat.add_assoc]

/-- **What is drawn after `first` unknown targets**: what is drawn alone, with `first` added to the numbers of the nodes
for unknown targets. There are as many of them, and they have the next numbers. -/
structure NumberedOn (first : Nat) (machines : List Machine) : Prop where
  body : bodyFrom first machines = joinLines ((linesFrom 0 machines).map fun line => (line.advance first).text)
  count : (unknownsIn (linesFrom first machines)).length = unknownCount machines
  numbers : ∀ number, (∃ line ∈ linesFrom first machines, ∃ node ∈ line.nodes, node.known = false ∧ node.number = number) ↔
    first < number ∧ number ≤ first + unknownCount machines

theorem mem_numbers_iff (machines : List Machine) (number : Nat) :
    (∃ line ∈ linesFrom 0 machines, ∃ node ∈ line.nodes, node.known = false ∧ node.number = number) ↔
      0 < number ∧ number ≤ unknownCount machines := by
  have tallied := tallied_foldl_drawMachine machines
  have isNumber : number ∈ (unknownsIn (linesFrom 0 machines)).map Node.number ↔
      0 < number ∧ number ≤ unknownCount machines := by
    rw [← unknown_foldl_drawMachine, show (unknownsIn (linesFrom 0 machines)).map Node.number = _ from tallied.numbers,
      List.mem_range'_1]
    omega
  rw [← isNumber]
  constructor
  · rintro ⟨line, member, node, isNode, unknown, rfl⟩
    exact List.mem_map_of_mem (tallied.ends line member node isNode unknown)
  · intro found
    obtain ⟨node, isEnd, rfl⟩ := List.mem_map.1 found
    obtain ⟨line, member, ends⟩ := List.mem_filterMap.1 isEnd
    obtain ⟨isNode, unknown⟩ := Line.mem_nodes_of_unknownEnd? ends
    exact ⟨line, member, node, isNode, unknown, rfl⟩

theorem numberedOn (first : Nat) (machines : List Machine) : NumberedOn first machines := by
  constructor
  · unfold bodyFrom
    rw [linesFrom_eq, List.map_map]
    rfl
  · rw [unknownsIn_linesFrom, List.length_map]
    rfl
  · intro number
    have advanced : ∀ {node : Node}, node.known = false → (node.advance first).number = node.number + first := by
      intro node unknown
      simp [Node.advance, unknown]
    rw [linesFrom_eq]
    constructor
    · rintro ⟨_, member, _, found, unknown, rfl⟩
      obtain ⟨line, isLine, rfl⟩ := List.mem_map.1 member
      rw [Line.nodes_advance] at found
      obtain ⟨node, isNode, rfl⟩ := List.mem_map.1 found
      rw [Node.known_advance] at unknown
      have alone := (mem_numbers_iff machines node.number).1 ⟨line, isLine, node, isNode, unknown, rfl⟩
      rw [advanced unknown]
      omega
    · rintro ⟨after, upTo⟩
      obtain ⟨line, isLine, node, isNode, unknown, isNumber⟩ :=
        (mem_numbers_iff machines (number - first)).2 (by omega)
      refine ⟨line.advance first, List.mem_map_of_mem isLine, node.advance first, ?_, ?_, ?_⟩
      · rw [Line.nodes_advance]
        exact List.mem_map_of_mem isNode
      · rw [Node.known_advance, unknown]
      · rw [advanced unknown]
        omega

/-- The console shows what the files show: the bodies of their documents, one after the other, each numbered on from the
ones before it. -/
theorem console_joins_documents (graph : Graph) (extension : String) :
    let groups := groupByOutput graph.ordered
    (∀ (first : Nat) (machines : List Machine), NumberedOn first machines) ∧
      graph.diagrams false extension = groups.map (fun group =>
        ⟨some (diagramPath group.1 extension), "@startuml\n" ++ bodyFrom 0 group.2 ++ "@enduml\n"⟩) ∧
      graph.diagrams true extension =
        [⟨none, "@startuml\n" ++ String.join (groups.mapIdx fun index group =>
          bodyFrom (unknownTotal (groups.take index)) group.2) ++ "@enduml\n"⟩] := by
  intro groups
  refine ⟨numberedOn, ?_, ?_⟩
  · simp only [Graph.diagrams_files, document_eq]
    rfl
  · have bodies := bodyFrom_groups 0 groups
    simp only [groups, flatten_groupByOutput, Nat.zero_add] at bodies
    unfold Graph.diagrams
    rw [if_pos rfl, document_eq, bodies]

end StepChart
