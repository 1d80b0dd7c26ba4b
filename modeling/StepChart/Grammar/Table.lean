import StepChart.Grammar.Merge

/-!
# Tables

A table tells a reader what to do: in each state and on each terminal the actions to take, and after
each construct the state to go on in. `Table.of` makes the table of a grammar.
-/

namespace StepChart.Grammar

/-- What to do on a terminal. -/
inductive Action (κ : Type) where
  /-- Takes the terminal and goes to a state. -/
  | shift (state : Nat)
  /-- Makes a construct of the last `count` parts. -/
  | reduce (category : κ) (count : Nat) (weight : Int)
  /-- Ends the text. -/
  | accept
deriving Repr, Inhabited

/-- What to do in each state. -/
structure Table (κ : Type) where
  /-- The number of states. -/
  size : Nat
  /-- The state before the text. -/
  start : Nat
  /-- The actions in a state on a terminal. -/
  actions (state : Nat) (terminal : Terminal) : List (Action κ)
  /-- The state after a construct that started in a state. -/
  goto (state : Nat) (category : κ) : Option Nat
  /-- The place of a symbol among all symbols. -/
  order (symbol : Symbol κ) : Nat

variable {κ : Type} [DecidableEq κ] [Hashable κ]

/-- A move with the category it makes. -/
def Move.action? (categories : Array κ) (terminalCount : Nat) : Move → Option (Action κ)
  | .shift state => some (.shift state)
  | .reduce head count weight => (categories[head - terminalCount]?).map (.reduce · count weight)
  | .accept => some .accept

/-- A number of states that no grammar for texts written by hand comes near. -/
def mostStates : Nat := 100000

/-- The table of a grammar. -/
def Table.of (grammar : Grammar κ) : Table κ :=
  let numbering := Numbering.of grammar
  let productions := grammar.flatMap numbering.productionsOf
  let states := (Blueprint.of grammar numbering productions).states mostStates
  let follow := following numbering.terminalCount productions (numbering.starts productions)
    (numbering.ends productions)
  let division := merged (hidden numbering.terminals follow) states
  let rows := division.groups.map fun group =>
    let state := representative states division.groupOf group
    let actions : Std.HashMap Terminal (List (Action κ)) :=
      .ofList <| (numbering.terminals.zip state.moves).toList.filterMap fun (terminal, moves) =>
        if moves.isEmpty then none
        else some (terminal, moves.filterMap (·.action? numbering.categories numbering.terminalCount))
    let gotos : Std.HashMap κ Nat :=
      .ofList <| state.gotos.toList.filterMap fun (symbol, target) =>
        (numbering.categories[symbol - numbering.terminalCount]?).map fun category => (category, target)
    (actions, gotos)
  { size := rows.size
    start := division.groupOf.getD 0 0
    actions := fun state terminal => ((rows[state]?).bind fun row => row.1[terminal]?).getD []
    goto := fun state category => (rows[state]?).bind fun row => row.2[category]?
    order := numbering.ofSymbol }

end StepChart.Grammar
