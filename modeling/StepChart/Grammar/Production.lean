import Std.Data.HashMap
import StepChart.Grammar.Rule

/-!
# Productions

The alternatives of a grammar with numbers for its symbols: first the terminals, then the categories
in the order of their definitions. A set of terminals is a number whose bits say which are in it.
-/

namespace StepChart.Grammar

/-- A set of terminals by number. -/
abbrev TerminalSet := Nat

/-- A part of a production. -/
structure NumberedStep where
  symbol : Nat
  rank : Int
  associativity : Option Associativity
deriving Repr, DecidableEq, Hashable, Inhabited

/-- A construct and one way to write it. -/
structure Production where
  head : Nat
  steps : List NumberedStep
  weight : Int
deriving Repr, DecidableEq, Inhabited

variable {κ : Type} [DecidableEq κ] [Hashable κ]

/-- The symbols of a grammar in the order of their numbers. -/
structure Numbering (κ : Type) [DecidableEq κ] [Hashable κ] where
  terminals : Array Terminal
  categories : Array κ
  terminalNumbers : Std.HashMap Terminal Nat
  categoryNumbers : Std.HashMap κ Nat

/-- The terminals that stand in a grammar; the end of the text is the first. -/
def terminalsOf (grammar : Grammar κ) : List Terminal :=
  let standing := grammar.flatMap fun definition => definition.shape.flatMap fun alternative =>
    alternative.steps.filterMap fun step =>
      match step.symbol with
      | .terminal terminal => some terminal
      | .category _ => none
  (.finish :: standing).eraseDups

namespace Numbering

/-- Numbers the symbols of a grammar. -/
def of (grammar : Grammar κ) : Numbering κ :=
  let terminals := terminalsOf grammar
  let categories := grammar.map (·.category)
  { terminals := terminals.toArray
    categories := categories.toArray
    terminalNumbers := .ofList terminals.zipIdx
    categoryNumbers := .ofList categories.zipIdx }

variable (numbering : Numbering κ)

/-- The number of terminals. -/
def terminalCount : Nat := numbering.terminals.size

/-- The number of symbols. -/
def size : Nat := numbering.terminalCount + numbering.categories.size

/-- The number of a category. -/
def ofCategory (category : κ) : Nat :=
  numbering.terminalCount + (numbering.categoryNumbers[category]?).getD 0

/-- The number of a symbol. -/
def ofSymbol : Symbol κ → Nat
  | .terminal terminal => (numbering.terminalNumbers[terminal]?).getD 0
  | .category category => numbering.ofCategory category

/-- The productions of a definition. A category that repeats is also two of its own in a row. -/
def productionsOf (definition : Definition κ) : List Production :=
  let head := numbering.ofCategory definition.category
  let twice : List Production :=
    if definition.repeats then [⟨head, [⟨head, 0, none⟩, ⟨head, 0, none⟩], 0⟩] else []
  twice ++ definition.shape.eraseDups.map fun alternative =>
    { head
      steps := alternative.steps.map fun step =>
        ⟨numbering.ofSymbol step.symbol, step.rank.getD 0, step.associativity⟩
      weight := alternative.weight }

/-- Passes the sets of symbols on along edges, each from the second symbol to the first, until
nothing changes. The set of a terminal holds that terminal. -/
def spread (edges : List (Nat × Nat)) : Array TerminalSet :=
  let start := Array.ofFn (n := numbering.size) fun symbol =>
    if symbol.val < numbering.terminalCount then 1 <<< symbol.val else 0
  let pass (sets : Array TerminalSet) : Array TerminalSet :=
    edges.foldl (fun sets edge =>
      let passed := sets.getD edge.2 0
      sets.modify edge.1 (· ||| passed)) sets
  Nat.repeat pass numbering.categories.size start

/-- The terminals a symbol can start with. -/
def starts (productions : List Production) : Array TerminalSet :=
  numbering.spread <| productions.filterMap fun production =>
    production.steps.head?.map fun step => (production.head, step.symbol)

/-- The terminals a symbol can end with. -/
def ends (productions : List Production) : Array TerminalSet :=
  numbering.spread <| productions.filterMap fun production =>
    production.steps.getLast?.map fun step => (production.head, step.symbol)

end Numbering

end StepChart.Grammar
