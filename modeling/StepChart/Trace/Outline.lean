import StepChart.Syntax.Size
import StepChart.Trace.Exits
import StepChart.Trace.Operation

/-!
# Outlines of steps

The outline of a step is what can be said of it before its guards are put into words: its moves,
each a transition with the guard it is taken under, and the outlines of the steps written inside it.
An exit becomes one or two moves. Function literals that an exit refers to become inner steps,
numbered in the order in which they are met, and are traced in turn.

`outline` traces a body with a bound on how deep function literals nest; the size of the body is
always enough.
-/

namespace StepChart

open Syntax Text

/-- A transition and the guard it is taken under, whose wording is still open. -/
structure Move where
  guard : Option Guard := none
  transition : Transition
deriving Inhabited

/-- A step whose guards are not worded yet. -/
structure Outline where
  signature : Signature
  moves : List Move := []
  subSteps : List Outline := []
  usages : NameSet := .empty
  migrations : NameSet := .empty
  isSubroutine : Bool := false
deriving Inhabited

/-! ## Signatures of inner steps -/

/-- The first parameter whose type is a context of the framework: the kind it belongs to, and its
name. -/
def findContext? (framework : String) (params : List Field) : Option (Kind × String) :=
  params.findSome? fun param =>
    let (qualifier, name) := param.type.qualifiedName
    if qualifier = framework then
      (Kind.ofContextType? name).map fun kind => (kind, param.names.head?.getD "")
    else none

/-- The signature of a step written inside another one. It has a context if the first context among
its parameters belongs to its kind. -/
def Signature.inner (outer : Signature) (framework name : String) (params : List Field) (kind : Kind) :
    Signature where
  receiverType := outer.receiverType
  receiverName := outer.receiverName
  name := name
  kind := kind
  contextArg :=
    match kind.hasContext, findContext? framework params with
    | true, some (found, arg) => if found = kind then arg else ""
    | _, _ => ""
  updateIndex := if kind.hasStateUpdate then 1 else 0

/-- A name with the qualifier before it, if there is one. -/
def dotted (qualified : String × String) : String :=
  if qualified.1.isEmpty then qualified.2 else qualified.1 ++ "." ++ qualified.2

/-- The name of a machine that is built in place, after the type of its literal. -/
def builtName (type : Option Expr) : String :=
  (type.map fun type => dotted type.qualifiedName).getD "" ++ "\x7b\x7d"

/-- The name of a machine that is run as a subroutine. -/
def machineName : Expr → String
  | .unary _ .address operand => machineName operand
  | .composite _ type _ => builtName type
  | expr => dotted expr.qualifiedName

/-! ## References to steps -/

/-- How the bodies of function literals are traced. -/
abbrev Tracer := Signature → List Stmt → Outline

/-- What is fixed while one step is traced: the qualifier of the framework, the step's signature,
and how function literals are traced. -/
structure Tracing where
  framework : String
  signature : Signature
  tracer : Tracer

namespace Tracing

/-- The name of the step an argument refers to, and the inner step it gives rise to, if it does: a
function literal is one, and so is a machine built in place where a plain step is meant. `count`
inner steps were met before. The name is empty for `nil` and for anything that names nothing. -/
def refer (tracing : Tracing) (kind : Kind) (count : Nat) : Expr → String × List Outline
  | .unary _ .address operand => if kind.hasStateUpdate then ("", []) else tracing.refer kind count operand
  | .composite _ type _ =>
    if kind = .plain then
      let name := builtName type
      let signature := tracing.signature.inner tracing.framework name [] kind
      (name, [{ signature, isSubroutine := true }])
    else ("", [])
  | .func _ params _ body =>
    let name := tracing.signature.name ++ "." ++ toString (count + 1)
    let signature := tracing.signature.inner tracing.framework name params kind
    (name, [tracing.tracer signature body])
  | expr => (if expr.qualifiedName = ("", "nil") then "" else dotted expr.qualifiedName, [])

/-- What a step descriptor says: a destination, a handler, and the inner steps they gave rise to. -/
structure Description where
  destination : String := ""
  migration : String := ""
  subs : List Outline := []

/-- Reads one entry of a descriptor after `count` inner steps. The last entry of a name counts. -/
def describeEntry (tracing : Tracing) (count : Nat) (said : Description) : Expr → Description
  | .keyValue _ key value =>
    if key.qualifiedName = ("", "Transition") then
      let (destination, added) := tracing.refer .execution (count + said.subs.length) value
      { said with destination, subs := said.subs ++ added }
    else if key.qualifiedName = ("", "Migration") then
      let (migration, added) := tracing.refer .migration (count + said.subs.length) value
      { said with migration, subs := said.subs ++ added }
    else said
  | _ => said

/-- Reads a descriptor after `count` inner steps. What is no descriptor is a destination known at
run time only. -/
def describe (tracing : Tracing) (count : Nat) (expr : Expr) : Description :=
  let dynamic : Description := { destination := "DYNAMIC " ++ expr.qualifiedName.2 }
  match expr with
  | .composite _ (some type) elements =>
    if type.qualifiedName.2 = "SlotStep" then elements.foldl (tracing.describeEntry count) {} else dynamic
  | _ => dynamic

/-! ## Transitions of an exit -/

/-- The transitions of an exit, and the inner steps they gave rise to. -/
structure Found where
  transitions : List Transition
  subs : List Outline := []

/-- A transition with a destination; it is unknown if it was not found. -/
def arrive (transition : Transition) (destination : String) : Transition :=
  { transition with destination := if destination.isEmpty then unknownDestination else destination }

/-- A transition with its own handler, if there is one; then nothing is inherited. -/
def handledBy (transition : Transition) (migration : String) : Transition :=
  if migration.isEmpty then transition else { transition with migration, inherits := false }

/-- A transition into a subroutine, after `count` inner steps. The machine runs as an inner step
with the handler of the transition, and leads to the step that runs after it. -/
def subroutine (tracing : Tracing) (count : Nat) (transition : Transition) (machine migrate exit : Expr) : Found :=
  let (migration, handlers) := tracing.refer .migration count migrate
  let transition := handledBy transition migration
  let number := count + handlers.length + 1
  let destination := tracing.signature.name ++ "." ++ machineName machine ++ "." ++ toString number
  let (resumption, after) := tracing.refer .execution number exit
  let entered : Outline :=
    { signature := tracing.signature.inner tracing.framework destination [] .plain
      moves := [{ transition := { destination := resumption } }]
      migrations := if transition.migration.isEmpty then .empty else .ofList [transition.migration]
      isSubroutine := true }
  { transitions := [{ transition with operation := "CallSubroutine", destination, migration := "", resumption }]
    subs := handlers ++ entered :: after }

/-- A jump to the step that the first argument refers to, after `count` inner steps. -/
def jumpTo (tracing : Tracing) (count : Nat) (transition : Transition) (kind : Kind) : (args : List Expr) → Found
  | [] => { transitions := [arrive transition ""] }
  | target :: _ =>
    let (destination, subs) := tracing.refer kind count target
    { transitions := [arrive transition destination], subs }

/-- A jump as the descriptor in the first argument says, after `count` inner steps. -/
def jumpAsDescribed (tracing : Tracing) (count : Nat) (transition : Transition) : (args : List Expr) → Found
  | [] => { transitions := [arrive transition ""] }
  | descriptor :: _ =>
    let said := tracing.describe count descriptor
    { transitions := [arrive (handledBy transition said.migration) said.destination], subs := said.subs }

/-- A repeat of the step before what else was found. -/
def orRepeat (transition : Transition) (found : Found) : Found :=
  { found with transitions := transition :: found.transitions }

/-- The transitions that a state update asks for, after `count` inner steps. -/
def perform (tracing : Tracing) (count : Nat) (transition : Transition) (chain : Chain) : Found :=
  match Operation.ofName chain.name with
  | .callSubroutine =>
    match chain.args with
    | [machine, migrate, exit] => tracing.subroutine count transition machine migrate exit
    | _ => { transitions := [arrive transition ""] }
  | .fail =>
    { transitions := [{ transition with operation := "Error", destination := stopDestination, inherits := false }] }
  | .stop => { transitions := [{ transition with destination := stopDestination, inherits := false }] }
  | .replace =>
    tracing.jumpTo count { transition with operation := "Replace", inherits := false } .construction chain.args
  | .replaceWith =>
    tracing.jumpTo count { transition with operation := "Replace", inherits := false } .plain chain.args
  | .repeatOrElse => { transitions := [{ transition with destination := "<ThenRepeatOrElse>" }] }
  | .repeatOrJump =>
    let jump := tracing.jumpTo count transition .execution chain.args
    if chain.args.isEmpty then jump else orRepeat transition jump
  | .repeatOrJumpAsDescribed => orRepeat transition (tracing.jumpAsDescribed count transition chain.args)
  | .jumpAsDescribed => tracing.jumpAsDescribed count transition chain.args
  | .jump =>
    if chain.args.isEmpty then { transitions := [transition] }
    else
      let operation := if transition.operation.isEmpty && chain.isDirect then chain.name else transition.operation
      tracing.jumpTo count { transition with operation } .execution chain.args

/-- The chain an exit hands back, and the inner step for a machine built in place. -/
def chainOf (tracing : Tracing) (count : Nat) : Update → Chain × List Outline
  | .chain chain => (chain, [])
  | .built type =>
    let (name, subs) := tracing.refer .plain count (.composite default type [])
    (.root name none, subs)

/-- The handler that a default names, and the inner step it gives rise to. -/
def defaultHandler (tracing : Tracing) (count : Nat) : Option Expr → String × List Outline
  | some handler => tracing.refer .execution count handler
  | none => ("", [])

/-- The transitions of an exit, after `count` inner steps. A default handler that is in force goes
into every transition, and then nothing is inherited. -/
def transitionsOf (tracing : Tracing) (count : Nat) (exit : Exit) : Found :=
  let (chain, built) := tracing.chainOf count exit.update
  let (migration, handlers) := tracing.defaultHandler (count + built.length) exit.defaults.migration
  let transition : Transition := { migration, inherits := exit.defaults.migration.isNone }
  let found : Found := match tracing.signature.kind with
    | .initializer | .construction => { transitions := [{ transition with destination := chain.fullName }] }
    | _ =>
      tracing.perform (count + built.length + handlers.length) { transition with operation := chain.waitLabel } chain
  { found with subs := built ++ handlers ++ found.subs }

/-- The moves and inner steps of a list of exits. -/
def moves (tracing : Tracing) (exits : List Exit) : List Move × List Outline :=
  exits.foldl (fun met exit =>
    let found := tracing.transitionsOf met.2.length exit
    (met.1 ++ found.transitions.map (Move.mk exit.guard), met.2 ++ found.subs)) ([], [])

end Tracing

/-- The outline of a step with the given body, in which function literals are traced by `tracer`. -/
def outlineWith (tracer : Tracer) (framework : String) : Tracer := fun signature body =>
  let followed := walk signature body
  let (moves, subSteps) := Tracing.moves ⟨framework, signature, tracer⟩ followed.exits
  { signature, moves, subSteps, usages := followed.usages }

/-- The outline of a step with the given body, in which function literals nest less than `depth`
deep. -/
def outline (framework : String) : (depth : Nat) → Tracer
  | 0 => fun signature _ => { signature }
  | depth + 1 => outlineWith (outline framework depth) framework

/-- The outline of a step with the given body. -/
def trace (framework : String) (signature : Signature) (body : List Stmt) : Outline :=
  outline framework (stmtsSize body + 1) signature body

end StepChart
