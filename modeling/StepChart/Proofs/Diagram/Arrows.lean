import Mathlib.Data.List.Forall2
import StepChart.Diagram
import StepChart.Proofs.Machine.Names

/-!
# Lines that draw arrows

What a line declares, mentions and draws, and what drawing arrows from a node adds to a drawing. An arrow adds
one line if its target is a registered step. Otherwise it also adds the lines of a node of its own, under the
next number, which is declared, annotated and marked before the arrow to it is drawn. `Draws` says all of that
for any number of arrows, and holds of the arrows of a step (`draws_handlers`, `draws_transitions`).
-/

namespace StepChart

/-! ## Views of lines -/

namespace Line

/-- The node that the line declares. -/
def declared? : Line → Option Node
  | .state _ node _ => some node
  | _ => none

/-- The nodes that the line mentions without declaring them. -/
def mentioned : Line → List Node
  | .state .. => []
  | .remark node _ | .start node | .stop node _ => [node]
  | .arrow source _ target _ => [source, target]

/-- The node that an arrow leaves; the one that starts a machine leaves none. -/
def left? : Line → Option Node
  | .stop node _ | .arrow node _ _ _ => some node
  | _ => none

/-- The node that a machine starts at. -/
def started? : Line → Option Node
  | .start node => some node
  | _ => none

/-- The node at which an arrow ends, if it is one for an unknown target. -/
def unknownEnd? : Line → Option Node
  | .arrow _ _ target _ => if target.known then none else some target
  | _ => none

end Line

/-- An arrow to the target called `name` ends at `node`: at the node of the step that was found for the name, or else at
a node for an unknown target, which is declared under this name and marked. -/
def EndsAt (machine : Machine) (lines : List Line) (name : String) (found : Option String) (node : Node) : Prop :=
  match found with
  | some key => ∃ step ∈ machine.steps, step.name = key ∧ node = Drawing.nodeOf machine step
  | none => node.known = false ∧ .state name node false ∈ lines ∧ .remark node "UNKNOWN" ∈ lines

/-- The line is the arrow of a handler. -/
def ShowsHandler (machine : Machine) (source : Node) (lines : List Line) (migration : String) (line : Line) : Prop :=
  ∃ node, line = .arrow source .dotted node "" ∧ EndsAt machine lines migration (machine.key? migration) node

/-- The line is the arrow of a transition: to the end of the machine, back to its own step, or to the target that was
found for its destination. -/
def ShowsTransition (machine : Machine) (source : Node) (lines : List Line) (transition : Transition) (line : Line) :
    Prop :=
  if transition.isStop then line = .stop source (Drawing.noteOf transition)
  else if transition.isRepeat then ∃ style, line = .arrow source style source (Drawing.noteOf transition)
  else ∃ style node, line = .arrow source style node (Drawing.noteOf transition) ∧
    EndsAt machine lines transition.destination transition.targets.destination node

section Monotone

variable {machine : Machine} {source : Node} {lines more : List Line}

theorem EndsAt.mono (within : lines ⊆ more) {name : String} {found : Option String} {node : Node}
    (ends : EndsAt machine lines name found node) : EndsAt machine more name found node := by
  cases found with
  | some key => exact ends
  | none => exact ⟨ends.1, within ends.2.1, within ends.2.2⟩

theorem ShowsHandler.mono (within : lines ⊆ more) {migration : String} {line : Line}
    (shows_ : ShowsHandler machine source lines migration line) : ShowsHandler machine source more migration line := by
  obtain ⟨node, rfl, ends⟩ := shows_
  exact ⟨node, rfl, ends.mono within⟩

theorem ShowsTransition.mono (within : lines ⊆ more) {transition : Transition} {line : Line}
    (shows_ : ShowsTransition machine source lines transition line) :
    ShowsTransition machine source more transition line := by
  unfold ShowsTransition at *
  split
  · rwa [if_pos ‹_›] at shows_
  · rw [if_neg ‹_›] at shows_
    split
    · rwa [if_pos ‹_›] at shows_
    · rw [if_neg ‹_›] at shows_
      obtain ⟨style, node, rfl, ends⟩ := shows_
      exact ⟨style, node, rfl, ends.mono within⟩

end Monotone

/-! ## Arrows -/

/-- The nodes for unknown targets with the numbers after `first` up to `last`. -/
def unknownNodes (machine : Machine) (first last : Nat) : List Node :=
  (List.range' (first + 1) (last - first)).map fun number => ⟨machine.sequence, false, number⟩

theorem unknownNodes_append (machine : Machine) {first middle last : Nat} (before : first ≤ middle)
    (after : middle ≤ last) :
    unknownNodes machine first middle ++ unknownNodes machine middle last = unknownNodes machine first last := by
  unfold unknownNodes
  have next : middle + 1 = first + 1 + 1 * (middle - first) := by omega
  have count : last - first = middle - first + (last - middle) := by omega
  rw [← List.map_append, next, List.range'_append, count]

theorem known_of_mem_unknownNodes {machine : Machine} {first last : Nat} {node : Node}
    (member : node ∈ unknownNodes machine first last) : node.known = false := by
  obtain ⟨number, -, rfl⟩ := List.mem_map.1 member
  rfl

theorem unknownNodes_self (machine : Machine) (number : Nat) : unknownNodes machine number number = [] := by
  simp [unknownNodes]

theorem unknownNodes_succ (machine : Machine) (number : Nat) :
    unknownNodes machine number (number + 1) = [⟨machine.sequence, false, number + 1⟩] := by
  simp [unknownNodes]

/-- **What drawing arrows does**: it adds lines, among which are the arrows. Each number that is given to an unknown
target on the way is the number of one node, which is declared once and is the end of one arrow. -/
structure Draws (machine : Machine) (source : Node) (before after : Drawing) (added arrows : List Line) : Prop where
  lines : after.lines = before.lines ++ added
  le : before.unknown ≤ after.unknown
  declared : added.filterMap Line.declared? = unknownNodes machine before.unknown after.unknown
  ends : added.filterMap Line.unknownEnd? = unknownNodes machine before.unknown after.unknown
  drawn : added.filter (·.left?.isSome) = arrows
  leaving : ∀ line ∈ arrows, line.left? = some source
  unstarted : ∀ line ∈ added, line.started? = none
  mentioned : ∀ line ∈ added, ∀ node ∈ line.mentioned, node = source ∨
    (∃ step ∈ machine.steps, node = Drawing.nodeOf machine step) ∨
      node ∈ unknownNodes machine before.unknown after.unknown

section Draws

variable {machine : Machine} {source : Node} {before middle after : Drawing}

theorem Draws.refl (machine : Machine) (source : Node) (drawing : Drawing) :
    Draws machine source drawing drawing [] [] := by
  have none : unknownNodes machine drawing.unknown drawing.unknown = [] := unknownNodes_self machine drawing.unknown
  constructor <;> simp [none]

theorem Draws.trans {added more arrows others : List Line} (first : Draws machine source before middle added arrows)
    (second : Draws machine source middle after more others) :
    Draws machine source before after (added ++ more) (arrows ++ others) where
  lines := by rw [second.lines, first.lines, List.append_assoc]
  le := Nat.le_trans first.le second.le
  declared := by
    rw [List.filterMap_append, first.declared, second.declared, unknownNodes_append machine first.le second.le]
  ends := by rw [List.filterMap_append, first.ends, second.ends, unknownNodes_append machine first.le second.le]
  drawn := by rw [List.filter_append, first.drawn, second.drawn]
  leaving line member := (List.mem_append.1 member).elim (first.leaving line) (second.leaving line)
  unstarted line member := (List.mem_append.1 member).elim (first.unstarted line) (second.unstarted line)
  mentioned line member node isMentioned := by
    rw [← unknownNodes_append machine first.le second.le, List.mem_append]
    rcases List.mem_append.1 member with old | new
    · exact (first.mentioned line old node isMentioned).imp_right (Or.imp_right .inl)
    · exact (second.mentioned line new node isMentioned).imp_right (Or.imp_right .inr)

/-- Only nodes for unknown targets are declared on the way. -/
theorem Draws.known_of_declared {added arrows : List Line} (draws : Draws machine source before after added arrows)
    {line : Line} (member : line ∈ added) {node : Node} (declares : line.declared? = some node) :
    node.known = false := by
  have declared : node ∈ added.filterMap Line.declared? := List.mem_filterMap.2 ⟨line, member, declares⟩
  rw [draws.declared] at declared
  exact known_of_mem_unknownNodes declared

theorem Draws.eq_of_left {added arrows : List Line} (draws : Draws machine source before after added arrows)
    {line : Line} (member : line ∈ added) {node : Node} (leaves : line.left? = some node) : node = source := by
  have isArrow : line ∈ added.filter (·.left?.isSome) := List.mem_filter.2 ⟨member, by rw [leaves]; rfl⟩
  rw [draws.drawn] at isArrow
  have leavesSource := draws.leaving line isArrow
  rw [leaves] at leavesSource
  exact Option.some.inj leavesSource

/-- The arrows are the lines that leave the node. -/
theorem Draws.filter_left {added arrows : List Line} (draws : Draws machine source before after added arrows) :
    added.filter (·.left? = some source) = arrows := by
  rw [← draws.drawn]
  refine List.filter_congr fun line member => ?_
  cases leaves : line.left? with
  | none => rfl
  | some node => simp [draws.eq_of_left member leaves]

/-- An arrow that ends at no unknown target adds one line. -/
theorem draws_line (drawing : Drawing) {line : Line} (leaves : line.left? = some source)
    (known : line.unknownEnd? = none)
    (mentioned : ∀ node ∈ line.mentioned, node = source ∨ ∃ step ∈ machine.steps, node = Drawing.nodeOf machine step) :
    Draws machine source drawing (drawing.draw [line]) [line] [line] := by
  have none : unknownNodes machine drawing.unknown (drawing.draw [line]).unknown = [] := unknownNodes_self machine _
  have undeclared : line.declared? = Option.none ∧ line.started? = Option.none := by
    cases line with
    | stop | arrow => exact ⟨rfl, rfl⟩
    | state | remark | start => cases leaves
  refine ⟨rfl, Nat.le_refl _, ?_, ?_, ?_, ?_, ?_, ?_⟩
  · rw [none, List.filterMap_cons_none undeclared.1, List.filterMap_nil]
  · rw [none, List.filterMap_cons_none known, List.filterMap_nil]
  · rw [List.filter_cons_of_pos (by rw [leaves]; rfl), List.filter_nil]
  · intro other member
    rwa [List.mem_singleton.1 member]
  · intro other member
    rw [List.mem_singleton.1 member]
    exact undeclared.2
  · intro other member node isMentioned
    rw [List.mem_singleton.1 member] at isMentioned
    exact (mentioned node isMentioned).imp_right .inl

/-- An arrow to a target ends at a registered step, or at a node that is drawn with it. -/
theorem draws_nodeFor (source : Node) (drawing : Drawing) {name : String} (nonempty : name ≠ "") {target : Option Step}
    (registered : ∀ step, target = some step → step ∈ machine.steps) (style : Arrow) (note : String) :
    let found := Drawing.nodeFor machine name target drawing
    let line := Line.arrow source style found.1 note
    ∃ added, Draws machine source drawing (found.2.draw [line]) added [line] ∧
      EndsAt machine added name (target.map Step.name) found.1 := by
  intro found line
  cases target with
  | some step =>
    have isStep := registered step rfl
    refine ⟨[line], draws_line drawing rfl rfl fun node member => ?_, step, isStep, rfl, rfl⟩
    rcases List.mem_cons.1 member with rfl | last
    · exact .inl rfl
    · exact .inr ⟨step, isStep, List.mem_singleton.1 last⟩
  | none =>
    have named : name.isEmpty = false := by simpa using nonempty
    let node : Node := ⟨machine.sequence, false, drawing.unknown + 1⟩
    let added := [.state name node false, .remark node machine.receiverType, .remark node "UNKNOWN", line]
    have drawn : found = (node, { drawing.draw [.state name node false, .remark node machine.receiverType,
        .remark node "UNKNOWN"] with unknown := drawing.unknown + 1 }) := by
      simp only [found, Drawing.nodeFor, Drawing.drawUnknown, named, Bool.false_eq_true, if_false]
      rfl
    have isNode : found.1 = node := by rw [drawn]
    have number : (found.2.draw [line]).unknown = drawing.unknown + 1 := by rw [drawn]; rfl
    have fresh : unknownNodes machine drawing.unknown (found.2.draw [line]).unknown = [node] := by
      rw [number]
      exact unknownNodes_succ machine drawing.unknown
    have isLine : line = .arrow source style node note := by simp only [line, isNode]
    refine ⟨added, ⟨?_, ?_, ?_, ?_, ?_, ?_, ?_, ?_⟩, ?_⟩
    · rw [drawn]
      simp [Drawing.draw, added]
    · rw [number]
      exact Nat.le_succ _
    · rw [fresh]
      simp [added, isLine, Line.declared?]
    · rw [fresh]
      simp only [added, isLine]
      rfl
    · simp [added, isLine, Line.left?]
    · simp [isLine, Line.left?]
    · simp [added, isLine, Line.started?]
    · rw [fresh]
      simp [added, isLine, Line.mentioned]
    · rw [isNode]
      exact ⟨rfl, by simp [added], by simp [added]⟩

/-- Arrows that are drawn one after the other, each of which shows an item. -/
theorem draws_foldl {α : Type} {run : Drawing → α → Drawing} (isShown : List Line → α → Line → Prop)
    (mono : ∀ {lines more}, lines ⊆ more → ∀ item line, isShown lines item line → isShown more item line)
    {items : List α}
    (one : ∀ item ∈ items, ∀ drawing, ∃ added line,
      Draws machine source drawing (run drawing item) added [line] ∧ isShown added item line) (drawing : Drawing) :
    ∃ added arrows, Draws machine source drawing (items.foldl run drawing) added arrows ∧
      List.Forall₂ (isShown added) items arrows := by
  induction items generalizing drawing with
  | nil => exact ⟨[], [], .refl machine source drawing, .nil⟩
  | cons item items ih =>
    obtain ⟨added, line, drawn, isItem⟩ := one item List.mem_cons_self drawing
    obtain ⟨more, arrows, drawnRest, areItems⟩ :=
      ih (fun other member => one other (List.mem_cons_of_mem _ member)) (run drawing item)
    refine ⟨added ++ more, line :: arrows, drawn.trans drawnRest,
      .cons (mono (List.subset_append_left _ _) item line isItem) ?_⟩
    exact areItems.imp (mono (List.subset_append_right _ _))

end Draws

/-! ## The arrows of a step -/

/-- What was found for the destinations of transitions is registered. -/
def Machine.Finds (machine : Machine) (transitions : List Transition) : Prop :=
  ∀ transition ∈ transitions, ∀ key, transition.targets.destination = some key → key ∈ machine.names

section Step

variable {machine : Machine} (source : Node) (drawing : Drawing)

theorem mem_of_bind_step? {found : Option String} {step : Step} (stored : found.bind machine.step? = some step) :
    step ∈ machine.steps := by
  obtain ⟨key, -, isKey⟩ := Option.bind_eq_some_iff.1 stored
  exact (Machine.step?_eq_some_iff.1 isKey).1

theorem map_name_bind_step? {found : Option String} (registered : ∀ key, found = some key → key ∈ machine.names) :
    (found.bind machine.step?).map Step.name = found := by
  cases found with
  | none => rfl
  | some key =>
    obtain ⟨step, member, rfl⟩ := List.mem_map.1 (registered key rfl)
    rw [Option.bind_some, Machine.step?_name member, Option.map_some]

theorem draws_handlers {handlers : List String} (named : "" ∉ handlers) :
    ∃ added arrows,
      Draws machine source drawing (handlers.foldl (Drawing.drawHandler machine source) drawing) added arrows ∧
      List.Forall₂ (ShowsHandler machine source added) handlers arrows := by
  refine draws_foldl (ShowsHandler machine source) (fun within _ _ => .mono within)
    (fun migration member drawing => ?_) drawing
  have nonempty : migration ≠ "" := fun empty => named (empty ▸ member)
  have isKey : ((machine.key? migration).bind machine.step?).map Step.name = machine.key? migration :=
    map_name_bind_step? fun key => Machine.mem_names_of_key?
  obtain ⟨added, drawn, ends⟩ := draws_nodeFor source drawing nonempty (fun step => mem_of_bind_step?) .dotted ""
  rw [isKey] at ends
  exact ⟨added, _, drawn, _, rfl, ends⟩

theorem draws_transitions (known : source.known = true) {transitions : List Transition}
    (finds : machine.Finds transitions) :
    ∃ added arrows,
      Draws machine source drawing (transitions.foldl (Drawing.drawTransition machine source) drawing) added arrows ∧
      List.Forall₂ (ShowsTransition machine source added) transitions arrows := by
  refine draws_foldl (ShowsTransition machine source) (fun within _ _ => .mono within)
    (fun transition member drawing => ?_) drawing
  unfold Drawing.drawTransition ShowsTransition
  dsimp only
  split
  · refine ⟨_, _, draws_line drawing rfl rfl fun node member => .inl (List.mem_singleton.1 member), rfl⟩
  · split
    · refine ⟨_, _, draws_line drawing rfl ?_ fun node member => .inl ?_, _, rfl⟩
      · simp [Line.unknownEnd?, known]
      · simpa [Line.mentioned] using member
    · next notRepeat =>
      have nonempty : transition.destination ≠ "" := by simpa [Transition.isRepeat] using notRepeat
      have isKey : (transition.targets.destination.bind machine.step?).map Step.name = transition.targets.destination :=
        map_name_bind_step? (finds transition member)
      obtain ⟨added, drawn, ends⟩ :=
        draws_nodeFor source drawing nonempty (fun step => mem_of_bind_step?) _ (Drawing.noteOf transition)
      rw [isKey] at ends
      exact ⟨added, _, drawn, _, _, rfl, ends⟩

end Step

end StepChart
