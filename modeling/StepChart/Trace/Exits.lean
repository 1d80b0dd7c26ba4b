import StepChart.Step.Basic
import StepChart.Trace.Scope

/-!
# Following a body

The statements of a step are followed in order, each branch and block in a scope of its own. What
comes out are the exits: the returns that are reached and whose state update can be traced, each
with the guard and the defaults in force there; and the usages: the calls on the context and on
adapters.

An exit is noted when the list of statements it ends is left. Nothing after a return or a branch is
reached in its own list. Defaults stay in force to the end of the list they are set in and beyond
the end of a block, loop, switch or select, but not beyond a branch of an `if` or a `case`.
-/

namespace StepChart

open Syntax Text

/-- What the context was told to do by default. -/
structure Defaults where
  migration : Option Expr := none
  errorHandler : Option Expr := none
  flags : Option Expr := none
deriving Inhabited

/-- The defaults after a call of the context with one argument. -/
def Defaults.told (defaults : Defaults) (name : String) (arg : Expr) : Defaults :=
  match name with
  | "SetDefaultMigration" => { defaults with migration := some arg }
  | "SetDefaultFlags" => { defaults with flags := some arg }
  | "SetDefaultErrorHandler" => { defaults with errorHandler := some arg }
  | _ => defaults

/-- What a return hands back: a chain, or a literal that builds a state machine in place. -/
inductive Update where
  | chain (chain : Chain)
  | built (type : Option Expr)
deriving Inhabited

/-- A return that leaves the step, with the guard and the defaults in force. -/
structure Exit where
  update : Update
  guard : Option Guard
  defaults : Defaults
deriving Inhabited

/-- What is known at a place in a body. -/
structure Walk where
  scope : Scope
  defaults : Defaults := {}
  exits : List Exit := []
  usages : NameSet := .empty
deriving Inhabited

/-- How a statement is left. -/
inductive Flow where
  | onward
  | out (update : Option Update)
deriving Inhabited

namespace Walk

/-- Notes a usage. -/
def use (walk : Walk) (usage : String) : Walk :=
  { walk with usages := walk.usages.insert usage }

/-- Notes the exit that a list of statements ended with, if it did, with the guard of `scope`. -/
def leave (walk : Walk) (scope : Scope) : Option Update → Walk
  | none => { walk with scope }
  | some update => { walk with scope, exits := walk.exits ++ [⟨update, scope.guard?, walk.defaults⟩] }

/-! ## Single statements -/

/-- What an expression hands back from a step of the given kind. -/
def updateOf (scope : Scope) (kind : Kind) (expr : Expr) : Option Update :=
  let inner := match expr with
    | .unary _ .address operand => operand
    | _ => expr
  match (kind.hasContext && !kind.hasStateUpdate : Bool), inner with
  | true, .composite _ type _ => some (.built type)
  | _, _ => (scope.resolve expr).map .chain

/-- The update among the results of a return: the one at the place the signature says, or the first.
-/
def returned (scope : Scope) (signature : Signature) (results : List Expr) : Option Update :=
  let value := if signature.updateIndex = 0 then results.head? else results[signature.updateIndex - 1]?
  value.bind (updateOf scope signature.kind)

/-- The usage that the call of an adapter is noted as: the call is prepared with the context as an
argument and then started or sent. -/
def adapterUsage? (scope : Scope) (chain : Chain) : Option String :=
  if chain.args.isEmpty && (chain.name == "Start" || chain.name == "Send") then
    let named := chain.ancestors.takeWhile Chain.hasName
    let prepared := named.find? fun ancestor => startsWith "Prepare" ancestor.name
    prepared.bind fun prepared =>
      if prepared.args.any fun arg => (scope.resolve arg).any Chain.isContextItself then
        some ("adapter:" ++ prepared.name ++ "." ++ chain.name)
      else none
  else none

/-- Follows a call that stands as a statement: a call of the context with one argument may set a
default. -/
def callStatement (walk : Walk) (function : Expr) (args : List Expr) : Walk :=
  match walk.scope.resolve function with
  | none => walk
  | some chain =>
    if chain.isDirect then
      match args with
      | [arg] => { walk with defaults := walk.defaults.told chain.name arg }.use chain.name
      | _ => walk
    else
      match adapterUsage? walk.scope chain with
      | some usage => walk.use usage
      | none => walk

/-- Follows declared variables. -/
def declare (scope : Scope) (specs : List ValueSpec) : Scope :=
  specs.foldl (fun scope spec => scope.assign (spec.names.map some) spec.values) scope

/-! ## Lists and branches -/

/-- Follows a list of statements, which `run` does, in a scope of its own, and notes the exit it
ends with. -/
def inBlock (run : Walk → Option Update × Walk) (walk : Walk) : Walk :=
  let ended := run { walk with scope := walk.scope.spawn none }
  ended.2.leave walk.scope ended.1

/-- Follows a branch in which `guard` holds. The defaults set there end with it. -/
def inBranch (guard : Option Guard) (run : Walk → Option Update × Walk) (walk : Walk) : Walk :=
  let inside := inBlock run { walk with scope := walk.scope.spawn guard }
  { inside with scope := walk.scope, defaults := walk.defaults }

/-- Goes on with `run` after a statement, unless the statement leaves its list. -/
def goOn (run : Walk → Option Update × Walk) : Flow × Walk → Option Update × Walk
  | (.onward, walk) => run walk
  | (.out update, walk) => (update, walk)

mutual

/-- Follows a statement. -/
def stmt (signature : Signature) : Stmt → Walk → Flow × Walk
  | .labeled _ inner, walk => stmt signature inner walk
  | .constDecl specs, walk => (.onward, { walk with scope := walk.scope.clear (specs.flatMap (·.names)) })
  | .typeDecl names, walk => (.onward, { walk with scope := walk.scope.clear names })
  | .varDecl specs, walk => (.onward, { walk with scope := declare walk.scope specs })
  | .expr (.call _ function args), walk => (.onward, walk.callStatement function args)
  | .expr _, walk => (.onward, walk)
  | .assign targets values, walk =>
    (.onward, { walk with scope := walk.scope.assign (targets.map Scope.plainName?) values })
  | .ret results, walk => (.out (returned walk.scope signature results), walk)
  | .branch _, walk => (.out none, walk)
  | .block body, walk => (.onward, walk.inBlock fun inner => stmts signature body inner)
  | .switch body, walk => (.onward, walk.inBlock fun inner => stmts signature body inner)
  | .typeSwitch body, walk => (.onward, walk.inBlock fun inner => stmts signature body inner)
  | .select body, walk => (.onward, walk.inBlock fun inner => stmts signature body inner)
  | .forLoop body, walk => (.onward, walk.inBlock fun inner => stmts signature body inner)
  | .range body, walk => (.onward, walk.inBlock fun inner => stmts signature body inner)
  | .ifElse cond body alternative, walk =>
    let afterBody := walk.inBranch (some ⟨[cond], false⟩) fun inner => stmts signature body inner
    (.onward, afterBody.inBranch (some ⟨[cond], true⟩) fun inner =>
      goOn (fun inner => (none, inner)) (stmt? signature alternative inner))
  | .caseClause alternatives body, walk =>
    let guard := if alternatives.isEmpty then none else some ⟨alternatives, false⟩
    (.onward, walk.inBranch guard fun inner => stmts signature body inner)
  | .commClause comm body, walk =>
    (.onward, walk.inBlock fun inner =>
      goOn (fun inner => stmts signature body inner) (stmt? signature comm inner))
  | .defer _, walk | .go _, walk | .send _ _, walk | .incDec _, walk | .empty, walk => (.onward, walk)

/-- Follows a statement that may be left out. -/
def stmt? (signature : Signature) : Option Stmt → Walk → Flow × Walk
  | none, walk => (.onward, walk)
  | some inner, walk => stmt signature inner walk

/-- Follows a list of statements up to the one that leaves it. -/
def stmts (signature : Signature) : List Stmt → Walk → Option Update × Walk
  | [], walk => (none, walk)
  | first :: rest, walk => goOn (fun walk => stmts signature rest walk) (stmt signature first walk)

end

end Walk

/-- Follows the body of a step. -/
def walk (signature : Signature) (body : List Stmt) : Walk :=
  Walk.inBlock (Walk.stmts signature body) { scope := .root signature.contextArg }

end StepChart
