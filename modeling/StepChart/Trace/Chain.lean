import StepChart.Syntax.Tree

/-!
# Chains of selections and calls

The value of an expression such as `ctx.Sleep().ThenRepeat()` is the chain of names selected one
after the other, each with the arguments it is called with, if it is called. A chain starts at the
context of the step or at any other name.
-/

namespace StepChart

open Syntax

/-- A chain of selections; `call` holds the arguments if the last selection is called. -/
inductive Chain where
  | context (call : Option (List Expr))
  | root (name : String) (call : Option (List Expr))
  | child (parent : Chain) (name : String) (call : Option (List Expr))
deriving Inhabited

namespace Chain

/-- The last name of a chain; the context has none. -/
def name : Chain → String
  | .context _ => ""
  | .root name _ | .child _ name _ => name

/-- The arguments of the last name, if it is called. -/
def call? : Chain → Option (List Expr)
  | .context call | .root _ call | .child _ _ call => call

/-- The arguments of the last name; none if it is not called. -/
def args (chain : Chain) : List Expr := chain.call?.getD []

/-- The last name is called. -/
def isCall (chain : Chain) : Bool := chain.call?.isSome

/-- The chain without its last name. -/
def parent? : Chain → Option Chain
  | .context _ | .root _ _ => none
  | .child parent _ _ => some parent

/-- The chain starts at the context. -/
def isContext : Chain → Bool
  | .context _ => true
  | .root _ _ => false
  | .child parent _ _ => parent.isContext

/-- The chain is the context itself. -/
def isContextItself : Chain → Bool
  | .context none => true
  | _ => false

/-- The last name is selected from the context itself. -/
def isDirect : Chain → Bool
  | .child parent _ _ => parent.isContextItself
  | _ => false

/-- The last name is not empty. -/
def hasName (chain : Chain) : Bool := !chain.name.isEmpty

/-- The chain with its last name called, instead of any call before. -/
def called (args : List Expr) : Chain → Chain
  | .context _ => .context (some args)
  | .root name _ => .root name (some args)
  | .child parent name _ => .child parent name (some args)

/-- The names of a chain with dots between them. -/
def fullName : Chain → String
  | .context _ => ""
  | .root name _ => name
  | .child parent name _ => parent.fullName ++ "." ++ name

/-- The chains that are left when the last name is taken off, again and again. -/
def ancestors : Chain → List Chain
  | .context _ | .root _ _ => []
  | .child parent _ _ => parent :: parent.ancestors

end Chain

end StepChart
