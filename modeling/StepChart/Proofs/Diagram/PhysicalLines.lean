import StepChart.Proofs.Diagram.Console
import StepChart.Proofs.Guard.Recovery

/-!
# Physical lines

Names stand in quotes in a document, whatever characters they have, and every other text of a line comes from a
receiver type, an operation or a condition (`exists_drawn`). So if these hold no end of a line, each line that is drawn
is one line of the document (`splitOn_document`), and the names can be read back off the lines (`quotedName?_text`).
Conditions are made of labels, which are read back as well.
-/

namespace StepChart

open Drawing Text

/-! ## Where lines come from -/

/-- The name is that of the step, of one of its handlers, or of a destination. -/
def Step.Mentions (step : Step) (name : String) : Prop :=
  name = step.name ∨ name ∈ step.migrations ∨ ∃ transition ∈ step.transitions, name = transition.destination

/-- **The lines that a step can be drawn with**, without regard to their nodes. -/
inductive Drawn (machine : Machine) (step : Step) : Line → Prop where
  | state {name : String} (mentions : step.Mentions name) (node : Node) (subroutine : Bool) :
    Drawn machine step (.state name node subroutine)
  | remark (node : Node) {text : String} (known : text ∈ ["UNKNOWN", "DUPLICATE", machine.receiverType]) :
    Drawn machine step (.remark node text)
  | start (node : Node) : Drawn machine step (.start node)
  | handler (source target : Node) : Drawn machine step (.arrow source .dotted target "")
  | stop (node : Node) {transition : Transition} (member : transition ∈ step.transitions) :
    Drawn machine step (.stop node (noteOf transition))
  | arrow (source : Node) (style : Arrow) (target : Node) {transition : Transition}
    (member : transition ∈ step.transitions) : Drawn machine step (.arrow source style target (noteOf transition))

/-- Every line of the drawing has the property. -/
def Drawing.Every (property : Line → Prop) (drawing : Drawing) : Prop :=
  ∀ line ∈ drawing.lines, property line

theorem Drawing.Every.draw {property : Line → Prop} {drawing : Drawing} (every : drawing.Every property)
    {lines : List Line} (added : ∀ line ∈ lines, property line) : (drawing.draw lines).Every property :=
  List.forall_mem_append.2 ⟨every, added⟩

section Drawn

variable {machine : Machine} {step : Step} {property : Line → Prop}
  (covers : ∀ line, Drawn machine step line → property line)

theorem drawn_heading : ∀ line ∈ heading machine step, Drawn machine step line := by
  intro line member
  simp only [heading, List.mem_append, List.mem_singleton, List.mem_ite_nil_left, List.mem_ite_nil_right] at member
  rcases member with ((rfl | ⟨-, rfl⟩) | ⟨-, rfl⟩) | ⟨-, rfl⟩
  · exact .state (.inl rfl) _ _
  · exact .remark _ (by simp)
  · exact .remark _ (by simp)
  · exact .start _

include covers

theorem every_nodeFor {name : String} (mentions : step.Mentions name) (target : Option Step) {drawing : Drawing}
    (every : drawing.Every property) : (nodeFor machine name target drawing).2.Every property := by
  cases target with
  | some step => exact every
  | none =>
    refine every.draw fun line member => covers line ?_
    simp only [List.mem_append, List.mem_ite_nil_left, List.mem_cons, List.not_mem_nil, or_false] at member
    rcases member with ⟨-, rfl⟩ | rfl | rfl
    · exact .state mentions _ _
    · exact .remark _ (by simp)
    · exact .remark _ (by simp)

theorem every_drawHandler (source : Node) {migration : String} (member : migration ∈ step.migrations)
    {drawing : Drawing} (every : drawing.Every property) :
    (drawHandler machine source drawing migration).Every property :=
  (every_nodeFor covers (.inr (.inl member)) _ every).draw (List.forall_mem_singleton.2 (covers _ (.handler _ _)))

theorem every_drawTransition (source : Node) {transition : Transition} (member : transition ∈ step.transitions)
    {drawing : Drawing} (every : drawing.Every property) :
    (drawTransition machine source drawing transition).Every property := by
  unfold drawTransition
  dsimp only
  split
  · exact every.draw (List.forall_mem_singleton.2 (covers _ (.stop _ member)))
  · split
    · exact every.draw (List.forall_mem_singleton.2 (covers _ (.arrow _ _ _ member)))
    · exact (every_nodeFor covers (.inr (.inr ⟨transition, member, rfl⟩)) _ every).draw
        (List.forall_mem_singleton.2 (covers _ (.arrow _ _ _ member)))

theorem every_drawStep {drawing : Drawing} (every : drawing.Every property) :
    (drawStep machine drawing step).Every property := by
  rw [drawStep_eq]
  refine List.foldlRecOn _ _ ?_ fun drawing every transition member => every_drawTransition covers _ member every
  refine List.foldlRecOn _ _ ?_ fun drawing every migration member => every_drawHandler covers _ ?_ every
  · exact every.draw fun line member => covers line (drawn_heading line member)
  · unfold Step.drawnHandlers at member
    split at member
    · exact member
    · cases member

end Drawn

/-- **Every line comes from a step of the machines.** -/
theorem exists_drawn (machines : List Machine) :
    ∀ line ∈ linesOf machines, ∃ machine ∈ machines, ∃ step ∈ machine.steps, Drawn machine step line := by
  let property line := ∃ machine ∈ machines, ∃ step ∈ machine.steps, Drawn machine step line
  have every : (machines.foldl drawMachine {}).Every property := by
    refine List.foldlRecOn _ _ (List.forall_mem_nil _) fun drawing every machine member => ?_
    refine List.foldlRecOn _ _ every fun drawing every step isStep => ?_
    exact every_drawStep (fun line drawn => ⟨machine, member, step, isStep, drawn⟩) every
  exact every

/-! ## The text of a line -/

/-- The name that the line shows. -/
def Line.name? : Line → Option String
  | .state name _ _ => some name
  | _ => none

/-- The name that a line of a document declares, read back from between its quotes. -/
def quotedName? (line : String) : Option String :=
  if startsWith "state \"" line then
    (readEscaped .between (line.toList.drop 7)).bind fun read =>
      if "\" as ".toList.isPrefixOf read.2 then some (String.ofList read.1) else none
  else none

theorem Node.newline_notMem_alias (node : Node) : '\n' ∉ node.alias.toList := by
  have digits : ∀ width number, '\n' ∉ (padded width number).toList := fun width number member =>
    absurd (isDigit_of_mem_padded member) (by decide)
  rw [Node.toList_alias]
  cases node.known <;> simp [digits]

theorem toList_quote (name : String) :
    (quote name).toList = '"' :: (name.toList.flatMap escapeChar ++ ['"']) := by
  simp [quote, escape]

theorem newline_notMem_quote (name : String) : '\n' ∉ (quote name).toList := by
  have escaped : '\n' ∉ name.toList.flatMap escapeChar := fun member =>
    absurd ((safe_escape name.toList).controls '\n' member) (by decide)
  simp [toList_quote, escaped]

theorem newline_notMem_noted {note : String} (single : '\n' ∉ note.toList) : '\n' ∉ (noted note).toList := by
  unfold noted
  split <;> simp [single]

theorem newline_notMem_noteOf {transition : Transition} (condition : '\n' ∉ transition.condition.toList)
    (operation : '\n' ∉ transition.operation.toList) : '\n' ∉ (noteOf transition).toList := by
  unfold noteOf
  split <;> simp [condition, operation]

/-- A line whose words hold no end of a line holds none. -/
theorem Drawn.newline_notMem_text {machine : Machine} {step : Step} {line : Line} (drawn : Drawn machine step line)
    (receiver : '\n' ∉ machine.receiverType.toList)
    (notes : ∀ transition ∈ step.transitions, '\n' ∉ (noteOf transition).toList) : '\n' ∉ line.text.toList := by
  cases drawn with
  | state mentions node subroutine =>
    cases subroutine <;> simp [Line.text, newline_notMem_quote, node.newline_notMem_alias]
  | @remark node text known =>
    have single : '\n' ∉ text.toList := by
      simp only [List.mem_cons, List.not_mem_nil, or_false] at known
      rcases known with rfl | rfl | rfl
      · decide
      · decide
      · exact receiver
    simp [Line.text, node.newline_notMem_alias, single]
  | start node => simp [Line.text, node.newline_notMem_alias]
  | handler source target =>
    simp [Line.text, Arrow.text, noted, source.newline_notMem_alias, target.newline_notMem_alias]
  | stop node member =>
    simp [Line.text, node.newline_notMem_alias, newline_notMem_noted (notes _ member)]
  | arrow source style target member =>
    cases style <;> simp [Line.text, Arrow.text, source.newline_notMem_alias, target.newline_notMem_alias,
      newline_notMem_noted (notes _ member)]

theorem quotedName?_eq_none {line : String} (other : startsWith "state \"" line = false) : quotedName? line = none := by
  rw [quotedName?, other]
  rfl

theorem quotedName?_state (name : String) (node : Node) (subroutine : Bool) :
    quotedName? (Line.state name node subroutine).text = some name := by
  obtain ⟨rest, text⟩ : ∃ rest, (Line.state name node subroutine).text.toList =
      "state \"".toList ++ (name.toList.flatMap escapeChar ++ ("\" as ".toList ++ rest)) :=
    ⟨(node.alias ++ if subroutine then " <<sdlreceive>>" else "").toList, by simp [Line.text, toList_quote]⟩
  have starts : startsWith "state \"" (Line.state name node subroutine).text = true := by
    rw [startsWith, text, List.isPrefixOf_iff_prefix]
    exact List.prefix_append _ _
  have read : readEscaped .between ((Line.state name node subroutine).text.toList.drop 7) =
      some (name.toList, "\" as ".toList ++ rest) := by
    have length : "state \"".toList.length = 7 := rfl
    rw [text, List.drop_left' length, readEscaped_escape]
    -- The reader stops at the closing quote.
    change some (name.toList ++ [], _) = _
    rw [List.append_nil]
    rfl
  have closed : "\" as ".toList.isPrefixOf ("\" as ".toList ++ rest) = true :=
    List.isPrefixOf_iff_prefix.2 (List.prefix_append _ _)
  rw [quotedName?, if_pos starts, read, Option.bind_some, if_pos closed, String.ofList_toList]

/-- **The names of a document can be read back**, and no other line looks like one that declares a name. -/
theorem quotedName?_text (line : Line) : quotedName? line.text = line.name? := by
  have aliased : ∀ (node : Node) (rest : String), quotedName? (node.alias ++ rest) = none := by
    intro node rest
    apply quotedName?_eq_none
    rw [startsWith, String.toList_append, Node.toList_alias]
    rfl
  cases line with
  | state name node subroutine => exact quotedName?_state name node subroutine
  | remark node text =>
    rw [Line.text, String.append_assoc]
    exact aliased node _
  | start node =>
    apply quotedName?_eq_none
    rw [Line.text, startsWith, String.toList_append]
    rfl
  | stop node note =>
    rw [Line.text, String.append_assoc]
    exact aliased node _
  | arrow source style target note =>
    simp only [Line.text, String.append_assoc]
    exact aliased source _

/-! ## The lines of a document -/

/-- Lines without ends of lines are the lines of their text. -/
theorem splitOn_joinLines {lines : List String} (single : ∀ line ∈ lines, '\n' ∉ line.toList) :
    (joinLines lines).toList.splitOn '\n' = lines.map String.toList ++ [[]] := by
  rw [toList_joinLines]
  induction lines with
  | nil => rfl
  | cons line rest ih =>
    obtain ⟨first, others⟩ := List.forall_mem_cons.1 single
    rw [List.flatMap_cons, List.append_assoc, List.singleton_append, List.splitOn_append_cons_self_of_not_mem first,
      ih others]
    rfl

/-- The lines of the document of some machines. -/
def documentLines (machines : List Machine) : List String :=
  ["@startuml"] ++ (linesOf machines).map Line.text ++ ["@enduml"]

/-- **Nothing but names can hold the end of a line**: receiver types and operations hold none, and conditions are labels
or what labels are joined to. -/
structure Machine.SingleLined (machine : Machine) : Prop where
  receiver : '\n' ∉ machine.receiverType.toList
  operations : ∀ step ∈ machine.steps, ∀ transition ∈ step.transitions, '\n' ∉ transition.operation.toList
  conditions : ∀ step ∈ machine.steps, ∀ transition ∈ step.transitions, Guard.Composed transition.condition

theorem splitOn_document {machines : List Machine} (single : ∀ machine ∈ machines, machine.SingleLined) :
    (document machines).toList.splitOn '\n' = (documentLines machines).map String.toList ++ [[]] := by
  refine splitOn_joinLines fun text member => ?_
  rcases List.mem_append.1 member with front | last
  · rcases List.mem_append.1 front with first | inner
    · rw [List.mem_singleton.1 first]
      decide
    · obtain ⟨line, isLine, rfl⟩ := List.mem_map.1 inner
      obtain ⟨machine, isMachine, step, isStep, drawn⟩ := exists_drawn machines line isLine
      obtain ⟨receiver, operations, conditions⟩ := single machine isMachine
      refine drawn.newline_notMem_text receiver fun transition isTransition => ?_
      refine newline_notMem_noteOf (fun member => ?_) (operations step isStep transition isTransition)
      exact absurd ((conditions step isStep transition isTransition).safe.controls '\n' member) (by decide)
  · rw [List.mem_singleton.1 last]
    decide

/-- The machines that are drawn together: all of them on the console, those of one output in a file. -/
def Graph.sheets (graph : Graph) (console : Bool) : List (List Machine) :=
  if console then [graph.ordered] else (groupByOutput graph.ordered).map (·.2)

section Sheets

variable (graph : Graph) (console : Bool)

theorem Graph.flatten_sheets : (graph.sheets console).flatten = graph.ordered := by
  cases console with
  | true => exact List.flatten_singleton
  | false => exact flatten_groupByOutput graph.ordered

theorem Graph.map_content_diagrams (extension : String) :
    (graph.diagrams console extension).map (·.content) = (graph.sheets console).map document := by
  cases console with
  | true => rfl
  | false =>
    simp only [Graph.diagrams_files, Graph.sheets, Bool.false_eq_true, if_false, List.map_map]
    rfl

theorem Graph.mem_machines_of_sheet {machines : List Machine} (isSheet : machines ∈ graph.sheets console)
    {machine : Machine} (member : machine ∈ machines) : machine ∈ graph.machines := by
  rw [← graph.ordered_perm.mem_iff, ← graph.flatten_sheets console]
  exact List.mem_flatten.2 ⟨machines, isSheet, member⟩

end Sheets

/-- **Quoting loses nothing and keeps lines apart.** A label is safe between quotes, and the text and the polarity of a
guard with alternatives can be read back from it, so that two such guards with the same label have the same text and
polarity; a guard without alternatives has an empty label. Whatever names a graph has, each line of its diagrams is one
line of their text, and each name that is declared in quotes is read back as the name of a step, a handler or a
destination. -/
theorem quoting_lossless :
    (∀ (source : String) (room : Nat) (guard : Guard) (label : String), guard.label source room = .ok label →
      Safe label.toList ∧ (guard.alternatives = [] → label = "") ∧
        (guard.alternatives ≠ [] → ∃ text, Guard.text source (Guard.signedRoom room) guard.alternatives = .ok text ∧
          Guard.readLabel? label = some (text, guard.inverted))) ∧
    (∀ (source other : String) (room limit : Nat) (first second : Guard) (label : String),
      first.alternatives ≠ [] → second.alternatives ≠ [] → first.label source room = .ok label →
        second.label other limit = .ok label → first.inverted = second.inverted ∧
          Guard.text source (Guard.signedRoom room) first.alternatives =
            Guard.text other (Guard.signedRoom limit) second.alternatives) ∧
    ∀ graph : Graph, (∀ machine ∈ graph.machines, machine.SingleLined) → ∀ (console : Bool) (extension : String),
      (graph.diagrams console extension).map (·.content.toList.splitOn '\n') =
        (graph.sheets console).map (fun machines => (documentLines machines).map String.toList ++ [[]]) ∧
      (graph.sheets console).flatten.Perm graph.machines ∧
      ∀ machines ∈ graph.sheets console, ∀ line ∈ linesOf machines, quotedName? line.text = line.name? ∧
        ∀ name, line.name? = some name → ∃ machine ∈ machines, ∃ step ∈ machine.steps, step.Mentions name := by
  refine ⟨fun source room guard label labelled => ?_, ?_, ?_⟩
  · refine ⟨Guard.safe_label labelled, fun none => Guard.label_empty none labelled, fun some => ?_⟩
    obtain ⟨text, isText, rfl⟩ := Guard.exists_text_of_label some labelled
    exact ⟨text, isText, Guard.readLabel?_bracket guard.inverted text⟩
  · intro source other room limit first second label someFirst someSecond labelled labelledToo
    obtain ⟨text, isText, isLabel⟩ := Guard.exists_text_of_label someFirst labelled
    obtain ⟨textToo, isTextToo, isLabelToo⟩ := Guard.exists_text_of_label someSecond labelledToo
    have read := Guard.readLabel?_bracket first.inverted text
    rw [← isLabel, isLabelToo, Guard.readLabel?_bracket] at read
    obtain ⟨rfl, sameInverted⟩ := Prod.mk.inj (Option.some.inj read)
    exact ⟨sameInverted.symm, isText.trans isTextToo.symm⟩
  · intro graph single console extension
    refine ⟨?_, (graph.flatten_sheets console).symm ▸ graph.ordered_perm, fun machines isSheet line isLine => ?_⟩
    · have split : (graph.diagrams console extension).map (·.content.toList.splitOn '\n') =
          ((graph.diagrams console extension).map (·.content)).map (·.toList.splitOn '\n') := by
        rw [List.map_map]
        rfl
      rw [split, graph.map_content_diagrams console extension, List.map_map]
      refine List.map_congr_left fun machines isSheet => splitOn_document fun machine member => ?_
      exact single machine (graph.mem_machines_of_sheet console isSheet member)
    · refine ⟨quotedName?_text line, fun name isName => ?_⟩
      obtain ⟨machine, isMachine, step, isStep, drawn⟩ := exists_drawn machines line isLine
      refine ⟨machine, isMachine, step, isStep, ?_⟩
      cases drawn with
      | state mentions => exact Option.some.inj isName ▸ mentions
      | remark | start | handler | stop | arrow => cases isName

/-- Names and a condition with quotes and ends of lines. -/
theorem quoting_lossless_raw :
    let guard : Guard := ⟨[.literal {} "`a\n\"b`"], true⟩
    let step : Step :=
      { signature := { name := "say \"a\"\nb" }
        transitions := [{ condition := "![`a\\n\\\"b`]", destination := "c\nd" }] }
    let machine : Machine :=
      { receiverType := "T", output := "t", sequence := 0, steps := [step], ascending := List.pairwise_singleton _ _ }
    guard.label "" 30 = .ok "![`a\\n\\\"b`]" ∧ Guard.readLabel? "![`a\\n\\\"b`]" = some ("`a\n\"b`", true) ∧
      machine.SingleLined ∧
      ((⟨[machine]⟩ : Graph).diagrams true "").map (·.content.toList.splitOn '\n') =
        [(documentLines [machine]).map String.toList ++ [[]]] := by
  intro guard step machine
  have labelled : guard.label "" 30 = .ok "![`a\\n\\\"b`]" := by decide +kernel
  have single : machine.SingleLined := by
    refine ⟨by decide, ?_, ?_⟩ <;> refine List.forall_mem_singleton.2 (List.forall_mem_singleton.2 ?_)
    · decide
    · exact .label labelled
  obtain ⟨text, isText, read⟩ := (quoting_lossless.1 "" 30 guard _ labelled).2.2 (List.cons_ne_nil _ _)
  have isRaw : text = "`a\n\"b`" := by
    have raw : Guard.text "" (Guard.signedRoom 30) guard.alternatives = .ok "`a\n\"b`" := by decide +kernel
    exact Except.ok.inj (isText.symm.trans raw)
  have sheets : (⟨[machine]⟩ : Graph).sheets true = [[machine]] := by
    rw [Graph.sheets, Graph.ordered, List.mergeSort_singleton]
    rfl
  refine ⟨labelled, isRaw ▸ read, single, ?_⟩
  rw [(quoting_lossless.2.2 ⟨[machine]⟩ (List.forall_mem_singleton.2 single) true "").1, sheets]
  rfl

/-- The polarity of a guard without alternatives cannot be told from its label. -/
theorem polarity_unrecoverable :
    ¬ ∃ recover : String → Bool, ∀ (source : String) (room : Nat) (guard : Guard) (label : String),
      guard.label source room = .ok label → recover label = guard.inverted := by
  rintro ⟨recover, recovers⟩
  have straight : recover "" = false := recovers "" 30 ⟨[], false⟩ "" rfl
  have inverted : recover "" = true := recovers "" 30 ⟨[], true⟩ "" rfl
  exact absurd (straight.symm.trans inverted) (by decide)

end StepChart
