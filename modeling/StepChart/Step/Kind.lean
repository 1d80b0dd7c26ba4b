/-!
# Kinds of steps

The kinds are ordered by what a function of the kind can do; each has what the kinds before it have.
-/

namespace StepChart

/-- What a recognized function is to its state machine. -/
inductive Kind where
  | plain | initializer | construction | initialization | execution | migration
deriving Repr, DecidableEq, Inhabited

namespace Kind

/-- The place of a kind in the order. -/
def rank : Kind → Nat
  | .plain => 0
  | .initializer => 1
  | .construction => 2
  | .initialization => 3
  | .execution => 4
  | .migration => 5

/-- Functions of this kind answer with a state update. -/
def hasStateUpdate (kind : Kind) : Bool := initialization.rank ≤ kind.rank

/-- Functions of this kind are given a context. -/
def hasContext (kind : Kind) : Bool := construction.rank ≤ kind.rank

/-- The kind of function that a context type belongs to. -/
def ofContextType? : String → Option Kind
  | "InitializationContext" => some .initialization
  | "ExecutionContext" => some .execution
  | "MigrationContext" => some .migration
  | "ConstructionContext" => some .construction
  | _ => none

end Kind

end StepChart
