import StepChart.Grammar.Item

/-!
# The automaton of a grammar

A state is a set of items, each with the terminals that may follow its construct. The moves of a
state on a terminal end constructs or take the terminal. Where both are possible the ranks decide,
then the side to which the constructs group; where neither does, all moves stay, and the text is
read in several ways at once.
-/

namespace StepChart.Grammar

/-- What can be done on a terminal. -/
inductive Move where
  /-- Takes the terminal and goes to a state. -/
  | shift (state : Nat)
  /-- Makes a construct of the last `count` parts. -/
  | reduce (head count : Nat) (weight : Int)
  /-- Ends the text. -/
  | accept
deriving Repr, DecidableEq, Inhabited

/-- The items of a state by number, in order, with what may follow them. -/
abbrev Kernel := Array (Nat × TerminalSet)

/-- A state of the automaton. -/
structure State where
  kernel : Kernel
  /-- The moves on each terminal. -/
  moves : Array (List Move)
  /-- The states after constructs, by the number of their category. -/
  gotos : Array (Nat × Nat)
deriving Inhabited

/-- All that the automaton of a grammar is made from. -/
structure Blueprint where
  terminalCount : Nat
  /-- The number that stands for a whole text with its end. -/
  whole : Nat
  repeats : Array Bool
  starts : Array TerminalSet
  items : Items
  /-- What may start where a construct of a category may start. -/
  prospects : Array (Array Prospect)
  first : Kernel

namespace Blueprint

variable {κ : Type} [DecidableEq κ] [Hashable κ]

/-- The blueprint for a grammar. -/
def of (grammar : Grammar κ) (numbering : Numbering κ) (productions : List Production) : Blueprint :=
  let terminalCount := numbering.terminalCount
  let whole := numbering.size
  let starts := numbering.starts productions
  let text : Production := ⟨whole, [⟨terminalCount, 0, none⟩], 0⟩
  let items := Items.of (text :: productions) starts
  let edges := descents terminalCount productions starts
  { terminalCount
    whole
    repeats := Array.replicate terminalCount false ++ (grammar.map (·.repeats)).toArray
    starts
    items
    prospects := (Array.range whole).map fun symbol =>
      if symbol < terminalCount then #[] else prospectsAt items productions (reaches whole edges symbol)
    first := #[(items.number (.ofProduction text), 1)] }

variable (blueprint : Blueprint)

/-! ## Successors -/

/-- The terminals that may follow each item of a state, those that its items bring with them
included; none for an item that is not in the state. -/
def follows (kernel : Kernel) : Array TerminalSet := Id.run do
  let items := blueprint.items
  let mut wanted : Array (Nat × TerminalSet) := #[]
  let mut follows := Array.replicate items.items.size 0
  for (item, follow) in kernel do
    follows := follows.modify item (· ||| follow)
    match items.next.getD item none with
    | none => pure ()
    | some symbol =>
      if blueprint.terminalCount ≤ symbol then
        let after := ((items.after.getD item none).getD follow)
        match wanted.findIdx? (·.1 == symbol) with
        | some index => wanted := wanted.modify index fun entry => (entry.1, entry.2 ||| after)
        | none => wanted := wanted.push (symbol, after)
  for (symbol, after) in wanted do
    for prospect in blueprint.prospects.getD symbol #[] do
      let added := if prospect.inherits then prospect.follow ||| after else prospect.follow
      follows := follows.modify prospect.item (· ||| added)
  return follows

/-- All items of a state, those that its items bring with them included. -/
def closure (kernel : Kernel) : Kernel :=
  let follows := blueprint.follows kernel
  follows.size.fold (fun item _ closure =>
    let follow := follows.getD item 0
    if follow = 0 then closure else closure.push (item, follow)) #[]

/-- Puts an item into the items of a state, in order. -/
def insertItem (kernel : Kernel) (item : Nat) (follow : TerminalSet) : Kernel :=
  match kernel.findIdx? (·.1 == item) with
  | some index => kernel.modify index fun entry => (entry.1, entry.2 ||| follow)
  | none => kernel.push (item, follow)

/-- The symbols that may come next, each with the items after it. -/
def successors (closure : Kernel) : Array (Nat × Kernel) := Id.run do
  let items := blueprint.items
  let mut found : Array (Nat × Kernel) := #[]
  let mut current : Nat := 0
  let mut kernel : Kernel := #[]
  for (number, follow) in closure do
    match items.next.getD number none with
    | none => pure ()
    | some symbol =>
      if symbol != current then
        if !kernel.isEmpty then found := found.push (current, kernel)
        current := symbol
        kernel := #[]
      kernel := insertItem kernel (items.advanced.getD number 0) follow
  if !kernel.isEmpty then found := found.push (current, kernel)
  return found.map fun entry => (entry.1, entry.2.qsort fun first second => first.1 < second.1)

/-! ## Moves -/

/-- The move that ends the construct of an item. -/
def ending (item : Item) : Move :=
  if item.head == blueprint.whole then .accept else .reduce item.head item.taken item.weight

/-- The moves of a state on a terminal. The items in `done` may end before it, in the order given;
the items in `going` may go on with it, to the state `target`. -/
def settle (done going : List Item) (target : Option Nat) : List Move :=
  let top := done.foldl (fun top item => max top item.rank) ((done.head?.map (·.rank)).getD 0)
  let ends := done.filter (·.rank == top)
  match target with
  | none => ends.map blueprint.ending
  | some state =>
    let heads := ((going ++ done).map (·.head)).eraseDups
    let inRepetition := match heads with
      | [head] => blueprint.repeats.getD head false
      | _ => false
    let stronger := going.any (top < ·.rank)
    let weaker := going.any (·.rank < top)
    let sides := (ends.map (·.associativity)).eraseDups
    if ends.isEmpty then [.shift state]
    else if inRepetition then ends.map blueprint.ending
    else if stronger && !weaker then [.shift state]
    else if weaker && !stronger then ends.map blueprint.ending
    else if !stronger && !weaker && sides == [some .left] then ends.map blueprint.ending
    else if !stronger && !weaker && sides == [some .right] then [.shift state]
    else ends.map blueprint.ending ++ [.shift state]

/-- The moves of a state, given the states after the terminals that may come next. -/
def movesOf (kernel closure : Kernel) (targets : Array (Nat × Nat)) : Array (List Move) :=
  let items := blueprint.items
  let entries := kernel.toList.map fun entry => (items.get entry.1, entry.2)
  let complete := closure.toList.filterMap fun entry =>
    if (items.next.getD entry.1 none).isNone then some (items.get entry.1, entry.2) else none
  let complete := complete.mergeSort fun first second => first.1.endsBefore second.1
  let shifts := targets.foldl (fun shifts entry => shifts.setIfInBounds entry.1 (some entry.2))
    (Array.replicate blueprint.terminalCount none)
  (Array.range blueprint.terminalCount).map fun terminal =>
    let done := complete.filterMap fun entry => if entry.2.testBit terminal then some entry.1 else none
    match done, shifts.getD terminal none with
    | [], none => []
    | [], some state => [.shift state]
    | done, none => blueprint.settle done [] none
    | done, some state =>
      let going := entries.filterMap fun entry =>
        match entry.1.next? with
        | some symbol =>
          let goesOn := 0 < entry.1.taken && (blueprint.starts.getD symbol 0).testBit terminal
          if goesOn then some entry.1 else none
        | none => none
      blueprint.settle done going (some state)

/-! ## All states -/

/-- The states of the automaton, at most `limit` of them; the first is the one before the text. -/
def states (limit : Nat) : Array State := Id.run do
  let mut known : Std.HashMap Kernel Nat := Std.HashMap.emptyWithCapacity 16384 |>.insert blueprint.first 0
  let mut pending : Array Kernel := #[blueprint.first]
  let mut states : Array State := #[]
  for number in [0:limit] do
    if number < pending.size then
      let kernel := pending.getD number #[]
      let closure := blueprint.closure kernel
      let mut targets : Array (Nat × Nat) := #[]
      let mut gotos : Array (Nat × Nat) := #[]
      for (symbol, successor) in blueprint.successors closure do
        let mut state := 0
        match known[successor]? with
        | some number => state := number
        | none =>
          state := pending.size
          known := known.insert successor state
          pending := pending.push successor
        if symbol < blueprint.terminalCount then targets := targets.push (symbol, state)
        else gotos := gotos.push (symbol, state)
      states := states.push { kernel, moves := blueprint.movesOf kernel closure targets, gotos }
  return states

end Blueprint

end StepChart.Grammar
