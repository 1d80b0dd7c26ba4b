import StepChart.Reading.Tree

/-!
# Stacks that share their parts

A text that can be read in several ways is read with several stacks at once. They are kept in one
graph: a node is the top of a stack, and its links lead to what is below. A node with several links
is the top of several stacks; readings that come to the same state at the same place go on as one.
-/

namespace StepChart.Reading

open Grammar Syntax

/-- A tree with the weight of its reading. -/
structure Entry (κ : Type) where
  tree : Tree κ
  weight : Int := 0
deriving Repr, Inhabited

/-- An entry of a stack and the node below it. -/
structure Link (κ : Type) where
  previous : Nat
  entry : Entry κ
deriving Repr, Inhabited

/-- The top of stacks that are in one state at one position; the weight is that of the heaviest. -/
structure Node (κ : Type) where
  state : Nat
  position : Nat
  weight : Int := 0
  links : List (Link κ) := []
deriving Repr, Inhabited

/-- The nodes of all stacks. -/
abbrev Stack (κ : Type) := Array (Node κ)

namespace Stack

variable {κ : Type} [DecidableEq κ]

/-- The node with a number. -/
def node (stack : Stack κ) (number : Nat) : Node κ :=
  stack.getD number default

/-- Puts an entry on a node: the new node is the last one. -/
def pushEntry (stack : Stack κ) (previous : Nat) (entry : Entry κ) (state position : Nat) : Stack κ :=
  let weight := (stack.node previous).weight + entry.weight
  stack.push { state, position, weight, links := [⟨previous, entry⟩] }

/-- Nodes are at the same position in the same state. -/
def meets (stack : Stack κ) (first second : Nat) : Bool :=
  (stack.node first).state == (stack.node second).state
    && (stack.node first).position == (stack.node second).position

/-- Links hold the same construct in the same place, above nodes that meet. -/
def alike (stack : Stack κ) (first second : Link κ) : Bool :=
  let one := first.entry.tree
  let other := second.entry.tree
  one.symbol == other.symbol && one.children.length == other.children.length && one.span == other.span
    && stack.meets first.previous second.previous

/-- Adds a link to a node. Of two readings of one construct above the same node the heavier stays;
above different nodes, those become one in turn. `depth` bounds how far down that goes. -/
def addLink (stack : Stack κ) (depth number : Nat) (link : Link κ) : Stack κ :=
  if link.previous = number then stack
  else
    let node := stack.node number
    let weight := (stack.node link.previous).weight + link.entry.weight
    match node.links.findIdx? (stack.alike · link) with
    | some index =>
      let known := node.links.getD index default
      if known.previous = link.previous then
        if known.entry.weight < link.entry.weight then
          stack.setIfInBounds number { node with links := node.links.set index link, weight }
        else stack
      else
        match depth with
        | 0 => stack
        | depth + 1 =>
          let stack := (stack.node link.previous).links.foldl
            (fun stack lower => addLink stack depth known.previous lower) stack
          stack.modify number fun node => { node with weight := max node.weight weight }
    | none =>
      stack.setIfInBounds number { node with links := node.links ++ [link], weight := max node.weight weight }
termination_by structural depth

/-- Adds the links of a node to another one. -/
def join (stack : Stack κ) (number other : Nat) : Stack κ :=
  (stack.node other).links.foldl (fun stack link => stack.addLink stack.size number link) stack

/-- The ways down from a node by `count` entries: the node below, and the entries from the lowest to
the highest. Ways along first links come before others. -/
def paths (stack : Stack κ) (number : Nat) : (count : Nat) → List (Nat × List (Entry κ))
  | 0 => [(number, [])]
  | count + 1 =>
    let upper := stack.paths number count
    let down (links : Node κ → List (Link κ)) : List (Nat × List (Entry κ)) :=
      upper.flatMap fun path =>
        (links (stack.node path.1)).map fun link => (link.previous, link.entry :: path.2)
    down (·.links.take 1) ++ down (·.links.drop 1)

end Stack

end StepChart.Reading
