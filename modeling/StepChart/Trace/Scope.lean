import StepChart.Guard.Label
import StepChart.Trace.Chain

/-!
# Scopes

While the body of a step is followed, local names may stand for the context or for chains that start
at it. Every nested block has a frame of its own, which reads the names of the frame around it until
the first name is bound in it; from then on it has its own copy of the table.
-/

namespace StepChart

open Syntax

/-- What local names stand for. -/
abbrev Aliases := List (String × Chain)

/-- The table with one name bound anew, or without it. -/
def Aliases.set (aliases : Aliases) (name : String) (value : Option Chain) : Aliases :=
  let others := aliases.filter fun entry => entry.1 != name
  match value with
  | some chain => (name, chain) :: others
  | none => others

/-- The part of a scope that belongs to one block or branch. -/
structure Frame where
  /-- The frame's own table; without one it reads the frame around it. -/
  aliases : Option Aliases := none
  /-- What holds in the branch the frame belongs to. -/
  guard : Option Guard := none
deriving Inhabited

/-- The frames around a place in a body, from the inside out, and the name of the context parameter.
-/
structure Scope where
  contextArg : String
  frame : Frame
  outer : List Frame
deriving Inhabited

namespace Scope

/-- The scope of a body before its first block. -/
def root (contextArg : String) : Scope := ⟨contextArg, {}, []⟩

/-- The scope inside a new frame. -/
def spawn (scope : Scope) (guard : Option Guard) : Scope :=
  ⟨scope.contextArg, { guard }, scope.frame :: scope.outer⟩

/-- The frames of a scope, from the inside out. -/
def frames (scope : Scope) : List Frame := scope.frame :: scope.outer

/-- The table that is in force in a list of frames: the nearest one, or else the context parameter
alone. -/
def inherited (contextArg : String) : List Frame → Aliases
  | [] => if contextArg.isEmpty then [] else [(contextArg, .context none)]
  | frame :: outer => frame.aliases.getD (inherited contextArg outer)

/-- What a name stands for in a list of frames. -/
def lookupIn (contextArg name : String) : List Frame → Option Chain
  | [] => if !contextArg.isEmpty && contextArg == name then some (.context none) else none
  | frame :: outer =>
    match frame.aliases with
    | some aliases => aliases.lookup name
    | none => lookupIn contextArg name outer

/-- A name is bound in a list of frames. -/
def bindsIn (contextArg name : String) : List Frame → Bool
  | [] => contextArg == name
  | frame :: outer =>
    match frame.aliases with
    | some aliases => (aliases.lookup name).isSome
    | none => bindsIn contextArg name outer

/-- What a name stands for. -/
def lookup (scope : Scope) (name : String) : Option Chain :=
  lookupIn scope.contextArg name scope.frames

/-- Binds a name in the innermost frame, or clears it. A frame gets its own table when there is
something to change. -/
def set (scope : Scope) (name : String) (value : Option Chain) : Scope :=
  match scope.frame.aliases with
  | some aliases => { scope with frame := { scope.frame with aliases := some (aliases.set name value) } }
  | none =>
    if value.isNone && !bindsIn scope.contextArg name scope.frames then scope
    else
      let aliases := inherited scope.contextArg scope.frames
      { scope with frame := { scope.frame with aliases := some (aliases.set name value) } }

/-- The guard of the innermost frame that has one. -/
def guard? (scope : Scope) : Option Guard :=
  scope.frames.findSome? Frame.guard

/-- The chain an expression denotes. Names that stand for nothing denote themselves. -/
def resolve (scope : Scope) : Expr → Option Chain
  | .selector _ operand field => (scope.resolve operand).map fun parent => .child parent field none
  | .call _ function args => (scope.resolve function).map (·.called args)
  | .ident _ name => some ((scope.lookup name).getD (.root name none))
  | _ => none

/-- The chain an expression denotes if it starts at the context; no other chains are kept under
names. -/
def contextValue (scope : Scope) (expr : Expr) : Option Chain :=
  (scope.resolve expr).filter Chain.isContext

/-- The value for the name at place `index`: one value alone goes to all names, and a missing value
clears its name. -/
def valueFor (values : List (Option Chain)) (index : Nat) : Option Chain :=
  match values with
  | [value] => value
  | values => values[index]?.join

/-- Binds names to values, each at its place. Places without a name, and the blank name, are
skipped. -/
def bind (scope : Scope) (names : List (Option String)) (values : List (Option Chain)) : Scope :=
  names.zipIdx.foldl (fun scope entry =>
    match entry.1 with
    | some name => if name = "_" then scope else scope.set name (valueFor values entry.2)
    | none => scope) scope

/-- Assigns expressions to names. All values are found before a name is bound. -/
def assign (scope : Scope) (names : List (Option String)) (values : List Expr) : Scope :=
  scope.bind names (values.map scope.contextValue)

/-- Clears names. -/
def clear (scope : Scope) (names : List String) : Scope :=
  names.foldl (fun scope name => scope.set name none) scope

/-- The name an expression consists of. -/
def plainName? : Expr → Option String
  | .ident _ name => some name
  | _ => none

end Scope

end StepChart
