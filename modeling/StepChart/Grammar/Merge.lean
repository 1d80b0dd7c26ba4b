import StepChart.Grammar.Automaton

/-!
# States that are one

States with the same items differ only in what may follow. They become one state where no two of
their moves disagree; then a word with a meaning in one of them has that meaning in all. A terminal
is not brought into a state in which it would hide another one: a line break hides everything, and a
mark hides a shorter one that could stand there followed by the rest.
-/

namespace StepChart.Grammar

/-! ## Terminals that hide others -/

/-- The characters of a mark. -/
def Terminal.markText : Terminal → List Char
  | .mark text => text.toList
  | _ => []

/-- The terminals that may come directly after each terminal. -/
def following (terminalCount : Nat) (productions : List Production) (starts ends : Array TerminalSet) :
    Array TerminalSet :=
  let pairs := productions.flatMap fun production => production.steps.zip (production.steps.drop 1)
  let facts := (pairs.map fun pair => (ends.getD pair.1.symbol 0, starts.getD pair.2.symbol 0)).eraseDups
  (Array.range terminalCount).map fun terminal =>
    facts.foldl (fun all fact => if fact.1.testBit terminal then all ||| fact.2 else all) 0

/-- The terminals that each terminal hides. -/
def hidden (terminals : Array Terminal) (following : Array TerminalSet) : Array TerminalSet :=
  let numbers := List.range terminals.size
  let text (number : Nat) : List Char := (terminals.getD number default).markText
  let hides (long short : Nat) : Bool :=
    match text short, (text long).drop (text short).length with
    | _ :: _, c :: _ =>
      (text short).isPrefixOf (text long) && numbers.any fun next =>
        (following.getD short 0).testBit next && (text next).head? == some c
    | _, _ => false
  terminals.mapIdx fun number terminal =>
    numbers.foldl (fun all other =>
      if (terminal == .newline && other != 0) || hides number other then all ||| (1 <<< other) else all) 0

/-! ## Groups of states -/

/-- A division of states into groups. -/
structure Division where
  groups : Array (Array Nat)
  /-- The group of each state. -/
  groupOf : Array Nat

namespace Division

/-- The states with the same items, whatever may follow them. -/
def ofStates (states : Array State) : Division := Id.run do
  let mut known : Std.HashMap (Array Nat) Nat := {}
  let mut groups : Array (Array Nat) := #[]
  let mut groupOf : Array Nat := #[]
  for number in [0:states.size] do
    let core := (states.getD number default).kernel.map (·.1)
    match known[core]? with
    | some group =>
      groups := groups.modify group (·.push number)
      groupOf := groupOf.push group
    | none =>
      known := known.insert core groups.size
      groupOf := groupOf.push groups.size
      groups := groups.push #[number]
  return ⟨groups, groupOf⟩

/-- The states of a group that are apart from an earlier one that stays; those in `left` have left
already. -/
def leaving (apart : Nat → Nat → Bool) : List Nat → (left : List Nat) → List Nat
  | [], left => left
  | first :: rest, left =>
    if left.contains first then leaving apart rest left
    else leaving apart rest (left ++ rest.filter fun state => !left.contains state && apart first state)

/-- Divides the groups further, and tells whether that changed something. The states that leave a
group are a new one, which is divided in its turn. -/
def split (division : Division) (apart : Array Nat → Nat → Nat → Bool) : Division × Bool := Id.run do
  let mut groups := division.groups
  let mut groupOf := division.groupOf
  let mut changed := false
  for group in [0:groupOf.size] do
    if group < groups.size then
      let members := (groups.getD group #[]).toList
      let left := leaving (apart groupOf) members []
      if !left.isEmpty then
        changed := true
        groups := groups.setIfInBounds group (members.filter (!left.contains ·)).toArray
        for state in left do
          groupOf := groupOf.setIfInBounds state groups.size
        groups := groups.push left.toArray
  return (⟨groups, groupOf⟩, changed)

/-- Divides as long as something changes. -/
def refine (division : Division) (apart : Array Nat → Nat → Nat → Bool) : Division := Id.run do
  let mut division := division
  for _ in [0:division.groupOf.size] do
    let (next, changed) := division.split apart
    division := next
    if !changed then break
  return division

end Division

/-! ## States that disagree -/

/-- Moves that are the same up to the groups of the states they lead to. -/
def sameMoves (groupOf : Array Nat) : List Move → List Move → Bool
  | [], [] => true
  | .shift first :: rest, .shift second :: others =>
    groupOf.getD first 0 == groupOf.getD second 0 && sameMoves groupOf rest others
  | first :: rest, second :: others => first == second && sameMoves groupOf rest others
  | _, _ => false

/-- The terminals on which a state can move. -/
def State.terminals (state : State) : TerminalSet :=
  (state.moves.foldl
    (fun (set, bit) moves => (if moves.isEmpty then set else set ||| bit, bit <<< 1)) (0, 1)).1

/-- Two states cannot be one: they move otherwise on a terminal, or a terminal of one would hide
one of the other. -/
def disagree (hidden : Array TerminalSet) (states : Array (State × TerminalSet)) (groupOf : Array Nat)
    (first second : Nat) : Bool :=
  let (left, leftTerminals) := states.getD first default
  let (right, rightTerminals) := states.getD second default
  left.moves.size.any fun terminal _ =>
    let leftMoves := left.moves.getD terminal []
    let rightMoves := right.moves.getD terminal []
    match leftMoves, rightMoves with
    | [], [] => false
    | [], _ => hidden.getD terminal 0 &&& leftTerminals != 0
    | _, [] => hidden.getD terminal 0 &&& rightTerminals != 0
    | _, _ => !sameMoves groupOf leftMoves rightMoves

/-- The state a list of moves ends in. -/
def target? (moves : List Move) : Option Nat :=
  match moves.getLast? with
  | some (.shift state) => some state
  | _ => none

/-- The states that may come after a state: for each terminal, then for each construct. -/
def State.targets (state : State) : Array (Option Nat) :=
  state.moves.map target? ++ state.gotos.map fun entry => some entry.2

/-- Two states cannot be one: on a terminal or after a construct they go to different groups. -/
def diverge (targets : Array (Array (Option Nat))) (groupOf : Array Nat) (first second : Nat) : Bool :=
  let left := targets.getD first #[]
  let right := targets.getD second #[]
  left.size.any fun place _ =>
    match left.getD place none, right.getD place none with
    | some one, some other => groupOf.getD one 0 != groupOf.getD other 0
    | _, _ => false

/-- The groups of states that become one. -/
def merged (hidden : Array TerminalSet) (states : Array State) : Division :=
  let known := states.map fun state => (state, state.terminals)
  let agreeing := ((Division.ofStates states).split (disagree hidden known)).1
  agreeing.refine (diverge (states.map (·.targets)))

/-- The state that stands for a group: it has the moves of all its states. -/
def representative (states : Array State) (groupOf : Array Nat) (group : Array Nat) : State :=
  let rename (moves : List Move) : List Move := moves.map fun
    | .shift state => .shift (groupOf.getD state 0)
    | move => move
  let members := group.map fun number => states.getD number default
  let first := members.getD 0 default
  { kernel := first.kernel
    moves := first.moves.mapIdx fun terminal _ =>
      ((members.map fun state => state.moves.getD terminal []).find? (!·.isEmpty)).elim [] rename
    gotos := first.gotos.map fun entry => (entry.1, groupOf.getD entry.2 0) }

end StepChart.Grammar
