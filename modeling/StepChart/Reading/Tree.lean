import StepChart.Grammar.Rule
import StepChart.Syntax.Span

/-!
# Trees of constructs

What a text is read as: its terminals are the leaves, its constructs the inner nodes.
-/

namespace StepChart.Reading

open Grammar Syntax

/-- A terminal with its text, or a construct with its parts; both with their place. -/
inductive Tree (κ : Type) where
  | leaf (terminal : Terminal) (text : String) (span : Span)
  | node (category : κ) (span : Span) (children : List (Tree κ))
deriving Repr, Inhabited

namespace Tree

variable {κ : Type}

/-- What the tree is. -/
def symbol : Tree κ → Symbol κ
  | .leaf terminal _ _ => .terminal terminal
  | .node category _ _ => .category category

/-- The place of the tree. -/
def span : Tree κ → Span
  | .leaf _ _ span | .node _ span _ => span

/-- The parts of the tree. -/
def children : Tree κ → List (Tree κ)
  | .leaf .. => []
  | .node _ _ children => children

/-- The construct made of parts. It reaches from the first of them to the last; without any it
stands at byte `place`. -/
def build (category : κ) (place : Nat) (children : List (Tree κ)) : Tree κ :=
  let start := children.head?.elim place (·.span.start)
  let stop := children.getLast?.elim place (·.span.stop)
  .node category ⟨start, stop⟩ children

/-! ## An order of trees -/

mutual

/-- Compares trees: by what they are, by the number of their parts, then part by part. -/
def compare (order : Symbol κ → Nat) : Tree κ → Tree κ → Ordering
  | .leaf first _ _, other => Ord.compare (order (.terminal first)) (order other.symbol)
  | .node first _ children, other =>
    (Ord.compare (order (.category first)) (order other.symbol)).then
      ((Ord.compare children.length other.children.length).then (compareAll order children other.children))

/-- Compares lists of trees one by one. -/
def compareAll (order : Symbol κ → Nat) : List (Tree κ) → List (Tree κ) → Ordering
  | first :: rest, second :: others => (compare order first second).then (compareAll order rest others)
  | _, _ => .eq

end

end Tree

end StepChart.Reading
