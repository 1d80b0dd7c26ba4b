import StepChart.Proofs.Syntax.Fields
import StepChart.Trace.Exits

/-!
# Bodies with other fields are followed alike

Following a body looks into no function literal. If the fields of function literals are changed everywhere in a
body, then they are changed in all expressions that are kept on the way, and nothing else is
(`walk_withFields`).
-/

namespace StepChart

open Syntax Text

/-! ## Expressions that are kept -/

/-- The chain with its arguments changed. -/
def Chain.map (f : Expr → Expr) : Chain → Chain
  | .context call => .context (call.map (List.map f))
  | .root name call => .root name (call.map (List.map f))
  | .child parent name call => .child (parent.map f) name (call.map (List.map f))

/-- The table with all arguments changed. -/
def Aliases.map (f : Expr → Expr) (aliases : Aliases) : Aliases :=
  List.map (fun entry => (entry.1, Chain.map f entry.2)) aliases

/-- The frame with all its expressions changed. -/
def Frame.map (f : Expr → Expr) (frame : Frame) : Frame :=
  ⟨frame.aliases.map (Aliases.map f), frame.guard.map (Guard.map f)⟩

/-- The scope with all its expressions changed. -/
def Scope.map (f : Expr → Expr) (scope : Scope) : Scope :=
  ⟨scope.contextArg, scope.frame.map f, scope.outer.map (Frame.map f)⟩

/-- The defaults with all their expressions changed. -/
def Defaults.map (f : Expr → Expr) (defaults : Defaults) : Defaults :=
  ⟨defaults.migration.map f, defaults.errorHandler.map f, defaults.flags.map f⟩

/-- What a return hands back, with its expressions changed. -/
def Update.map (f : Expr → Expr) : Update → Update
  | .chain value => .chain (value.map f)
  | .built type => .built (type.map f)

/-- The exit with all its expressions changed. -/
def Exit.map (f : Expr → Expr) (exit : Exit) : Exit :=
  ⟨exit.update.map f, exit.guard.map (Guard.map f), exit.defaults.map f⟩

/-- The walk with all its expressions changed. -/
def Walk.map (f : Expr → Expr) (walk : Walk) : Walk :=
  ⟨walk.scope.map f, walk.defaults.map f, walk.exits.map (Exit.map f), walk.usages⟩

/-- How a statement is left, with the expressions changed. -/
def Flow.map (f : Expr → Expr) : Flow → Flow
  | .onward => .onward
  | .out update => .out (update.map (Update.map f))

section Kept

variable (f : Expr → Expr)

/-! ## Chains -/

namespace Chain

variable (chain : Chain)

@[simp] theorem name_map : (chain.map f).name = chain.name := by cases chain <;> rfl

@[simp] theorem args_map : (chain.map f).args = chain.args.map f := by
  cases chain with
  | context call | root _ call | child _ _ call => cases call <;> rfl

@[simp] theorem isContext_map : (chain.map f).isContext = chain.isContext := by
  induction chain with
  | context | root => rfl
  | child parent name call ih => exact ih

@[simp] theorem isContextItself_map : (chain.map f).isContextItself = chain.isContextItself := by
  cases chain with
  | context call => cases call <;> rfl
  | root | child => rfl

@[simp] theorem isDirect_map : (chain.map f).isDirect = chain.isDirect := by
  cases chain with
  | context | root => rfl
  | child parent => exact parent.isContextItself_map f

@[simp] theorem hasName_map : (chain.map f).hasName = chain.hasName := by simp [hasName]

@[simp] theorem fullName_map : (chain.map f).fullName = chain.fullName := by
  induction chain with
  | context | root => rfl
  | child parent name call ih => simp only [map, fullName, ih]

theorem called_map (args : List Expr) : (chain.map f).called (args.map f) = (chain.called args).map f := by
  cases chain <;> rfl

theorem parent?_map : (chain.map f).parent? = chain.parent?.map (map f) := by cases chain <;> rfl

theorem ancestors_map : (chain.map f).ancestors = chain.ancestors.map (map f) := by
  induction chain with
  | context | root => rfl
  | child parent name call ih => simp only [map, ancestors, ih, List.map_cons]

end Chain

/-! ## Scopes -/

theorem Aliases.lookup_map (aliases : Aliases) (name : String) :
    (Aliases.map f aliases).lookup name = (aliases.lookup name).map (Chain.map f) := by
  induction aliases with
  | nil => rfl
  | cons entry aliases ih =>
    obtain ⟨key, chain⟩ := entry
    unfold Aliases.map at ih ⊢
    rw [List.map_cons, List.lookup_cons, List.lookup_cons]
    cases name == key with
    | true => rfl
    | false => exact ih

theorem Aliases.set_map (aliases : Aliases) (name : String) (value : Option Chain) :
    (Aliases.map f aliases).set name (value.map (Chain.map f)) = Aliases.map f (aliases.set name value) := by
  have others : (Aliases.map f aliases).filter (fun entry => entry.1 != name) =
      Aliases.map f (aliases.filter fun entry => entry.1 != name) := List.filter_map
  cases value with
  | none => exact others
  | some chain => exact congrArg (List.cons _) others

namespace Scope

variable (scope : Scope)

theorem frames_map : (scope.map f).frames = scope.frames.map (Frame.map f) := rfl

theorem spawn_map (guard : Option Guard) :
    (scope.map f).spawn (guard.map (Guard.map f)) = (scope.spawn guard).map f := rfl

theorem lookupIn_map (contextArg name : String) (frames : List Frame) :
    lookupIn contextArg name (frames.map (Frame.map f)) = (lookupIn contextArg name frames).map (Chain.map f) := by
  induction frames with
  | nil =>
    simp only [List.map_nil, lookupIn]
    split <;> rfl
  | cons frame outer ih =>
    obtain ⟨aliases, guard⟩ := frame
    cases aliases with
    | none => exact ih
    | some aliases => exact Aliases.lookup_map f aliases name

theorem bindsIn_map (contextArg name : String) (frames : List Frame) :
    bindsIn contextArg name (frames.map (Frame.map f)) = bindsIn contextArg name frames := by
  induction frames with
  | nil => rfl
  | cons frame outer ih =>
    obtain ⟨aliases, guard⟩ := frame
    cases aliases with
    | none => exact ih
    | some aliases =>
      simp only [List.map_cons, Frame.map, bindsIn, Option.map_some, Aliases.lookup_map, Option.isSome_map]

theorem inherited_map (contextArg : String) (frames : List Frame) :
    inherited contextArg (frames.map (Frame.map f)) = Aliases.map f (inherited contextArg frames) := by
  induction frames with
  | nil =>
    simp only [List.map_nil, inherited]
    split <;> rfl
  | cons frame outer ih =>
    obtain ⟨aliases, guard⟩ := frame
    cases aliases with
    | none => exact ih
    | some aliases => rfl

theorem lookup_map (name : String) : (scope.map f).lookup name = (scope.lookup name).map (Chain.map f) :=
  lookupIn_map f scope.contextArg name scope.frames

theorem set_map (name : String) (value : Option Chain) :
    (scope.map f).set name (value.map (Chain.map f)) = (scope.set name value).map f := by
  obtain ⟨contextArg, ⟨aliases, guard⟩, outer⟩ := scope
  cases aliases with
  | some aliases => simp only [map, set, Frame.map, Option.map_some, Aliases.set_map]
  | none =>
    have binds := bindsIn_map f contextArg name (⟨none, guard⟩ :: outer)
    have table := inherited_map f contextArg (⟨none, guard⟩ :: outer)
    simp only [List.map_cons, Frame.map, Option.map_none] at binds table
    by_cases unbound : (value.isNone && !bindsIn contextArg name (⟨none, guard⟩ :: outer)) = true
    · simp only [map, set, Frame.map, frames, Option.map_none, Option.isNone_map, binds, unbound, if_true]
    · simp only [map, set, Frame.map, frames, Option.map_none, Option.isNone_map, binds, unbound, table,
        Aliases.set_map]
      rfl

theorem guard?_map : (scope.map f).guard? = scope.guard?.map (Guard.map f) := by
  unfold guard?
  rw [frames_map]
  induction scope.frames with
  | nil => rfl
  | cons frame outer ih =>
    obtain ⟨aliases, guard⟩ := frame
    cases guard with
    | none => exact ih
    | some guard => rfl

theorem valueFor_map (values : List (Option Chain)) (index : Nat) :
    valueFor (values.map (Option.map (Chain.map f))) index = (valueFor values index).map (Chain.map f) := by
  match values with
  | [] => rfl
  | [value] => rfl
  | first :: second :: rest =>
    simp only [List.map_cons, valueFor]
    rw [← List.map_cons, ← List.map_cons, List.getElem?_map]
    cases (first :: second :: rest)[index]? <;> rfl

theorem bind_map (names : List (Option String)) (values : List (Option Chain)) :
    (scope.map f).bind names (values.map (Option.map (Chain.map f))) = (scope.bind names values).map f := by
  unfold bind
  induction names.zipIdx generalizing scope with
  | nil => rfl
  | cons entry entries ih =>
    obtain ⟨name, index⟩ := entry
    rw [List.foldl_cons, List.foldl_cons, ← ih]
    cases name with
    | none => rfl
    | some name =>
      dsimp only
      split
      · rfl
      · rw [valueFor_map, set_map]

theorem clear_map (names : List String) : (scope.map f).clear names = (scope.clear names).map f := by
  unfold clear
  induction names generalizing scope with
  | nil => rfl
  | cons name names ih =>
    rw [List.foldl_cons, List.foldl_cons, ← ih]
    exact congrArg (fun scope => List.foldl _ scope names) (set_map f scope name none)

end Scope

theorem Defaults.told_map (defaults : Defaults) (name : String) (arg : Expr) :
    (defaults.map f).told name (f arg) = (defaults.told name arg).map f := by
  unfold told
  split <;> rfl

/-! ## Lists and branches -/

namespace Walk

variable (walk : Walk)

theorem leave_map (scope : Scope) (update : Option Update) :
    (walk.map f).leave (scope.map f) (update.map (Update.map f)) = (walk.leave scope update).map f := by
  cases update with
  | none => rfl
  | some update => simp [leave, map, Exit.map, Scope.guard?_map]

/-- Two ways to follow a list of statements do the same, up to the change. -/
def SameRun (f : Expr → Expr) (first second : Walk → Option Update × Walk) : Prop :=
  ∀ walk : Walk, first (walk.map f) = ((second walk).1.map (Update.map f), (second walk).2.map f)

variable {first second : Walk → Option Update × Walk}

theorem inBlock_map (same : SameRun f first second) : (walk.map f).inBlock first = (walk.inBlock second).map f := by
  unfold inBlock
  have inner : first { walk.map f with scope := (walk.map f).scope.spawn none } =
      ((second { walk with scope := walk.scope.spawn none }).1.map (Update.map f),
        (second { walk with scope := walk.scope.spawn none }).2.map f) :=
          same { walk with scope := walk.scope.spawn none }
  simp only [inner]
  exact leave_map f _ walk.scope _

theorem inBranch_map (same : SameRun f first second) (guard : Option Guard) :
    (walk.map f).inBranch (guard.map (Guard.map f)) first = (walk.inBranch guard second).map f := by
  unfold inBranch
  have inside := inBlock_map f { walk with scope := walk.scope.spawn guard } same
  simp only [map, Scope.spawn_map] at inside ⊢
  rw [inside]

theorem goOn_map (same : SameRun f first second) (result : Flow × Walk) :
    goOn first (result.1.map f, result.2.map f) =
      ((goOn second result).1.map (Update.map f), (goOn second result).2.map f) := by
  obtain ⟨flow, after⟩ := result
  cases flow with
  | onward => exact same after
  | out update => rfl

end Walk

end Kept

/-! ## Fields of function literals -/

variable (change : Field → Field)

namespace Scope

variable (scope : Scope)

theorem resolve_withFields (expr : Expr) :
    (scope.map (Expr.withFields change)).resolve (expr.withFields change) =
      (scope.resolve expr).map (Chain.map (Expr.withFields change)) := by
  fun_induction Scope.resolve scope expr with
  | case1 span operand field ih =>
    rw [Expr.withFields, resolve, ih]
    cases scope.resolve operand <;> rfl
  | case2 span function args ih =>
    rw [Expr.withFields, resolve, ih, exprsWithFields_eq_map]
    cases scope.resolve function with
    | none => rfl
    | some chain => exact congrArg some (chain.called_map _ args)
  | case3 span name =>
    rw [Expr.withFields, resolve, lookup_map]
    cases scope.lookup name <;> rfl
  | case4 expr noSelector noCall noIdent =>
    cases expr with
    | selector span operand field => exact absurd rfl (noSelector span operand field)
    | call span function args => exact absurd rfl (noCall span function args)
    | ident span name => exact absurd rfl (noIdent span name)
    | _ => rfl

theorem contextValue_withFields (expr : Expr) :
    (scope.map (Expr.withFields change)).contextValue (expr.withFields change) =
      (scope.contextValue expr).map (Chain.map (Expr.withFields change)) := by
  unfold contextValue
  rw [resolve_withFields]
  cases scope.resolve expr with
  | none => rfl
  | some chain =>
    simp only [Option.map_some, Option.filter_some, Chain.isContext_map]
    split <;> rfl

theorem assign_withFields (names : List (Option String)) (values : List Expr) :
    (scope.map (Expr.withFields change)).assign names (exprsWithFields change values) =
      (scope.assign names values).map (Expr.withFields change) := by
  unfold assign
  rw [← bind_map, exprsWithFields_eq_map, List.map_map, List.map_map]
  exact congrArg _ (List.map_congr_left fun value _ => scope.contextValue_withFields change value)

theorem plainName?_withFields (expr : Expr) : plainName? (expr.withFields change) = plainName? expr := by
  cases expr <;> rfl

end Scope

namespace Walk

theorem declare_withFields (scope : Scope) (specs : List ValueSpec) :
    declare (scope.map (Expr.withFields change)) (specsWithFields change specs) =
      (declare scope specs).map (Expr.withFields change) := by
  unfold declare
  induction specs generalizing scope with
  | nil => rfl
  | cons spec specs ih =>
    obtain ⟨names, values⟩ := spec
    rw [specsWithFields, List.foldl_cons, List.foldl_cons, ← ih]
    exact congrArg (fun scope => List.foldl _ scope _) (scope.assign_withFields change (names.map some) values)

theorem names_specsWithFields (specs : List ValueSpec) :
    (specsWithFields change specs).flatMap (·.names) = specs.flatMap (·.names) := by
  induction specs with
  | nil => rfl
  | cons spec specs ih =>
    obtain ⟨names, values⟩ := spec
    rw [specsWithFields, List.flatMap_cons, List.flatMap_cons, ih]
    rfl

/-- The operand of an address operator, or else the expression. -/
def addressed : Expr → Expr
  | .unary _ .address operand => operand
  | expr => expr

theorem addressed_withFields (expr : Expr) :
    addressed (expr.withFields change) = (addressed expr).withFields change := by
  cases expr with
  | unary span op operand => cases op <;> rfl
  | _ => rfl

theorem updateOf_addressed (scope : Scope) (kind : Kind) (expr : Expr) :
    updateOf scope kind expr = match (kind.hasContext && !kind.hasStateUpdate : Bool), addressed expr with
      | true, .composite _ type _ => some (.built type)
      | _, _ => (scope.resolve expr).map .chain := by
  cases expr with
  | unary span op operand => cases op <;> rfl
  | _ => rfl

theorem updateOf_withFields (scope : Scope) (kind : Kind) (expr : Expr) :
    updateOf (scope.map (Expr.withFields change)) kind (expr.withFields change) =
      (updateOf scope kind expr).map (Update.map (Expr.withFields change)) := by
  have resolved : ((scope.map (Expr.withFields change)).resolve (expr.withFields change)).map Update.chain =
      ((scope.resolve expr).map Update.chain).map (Update.map (Expr.withFields change)) := by
    rw [Scope.resolve_withFields]
    cases scope.resolve expr <;> rfl
  rw [updateOf_addressed, updateOf_addressed, addressed_withFields]
  cases (kind.hasContext && !kind.hasStateUpdate : Bool) with
  | false => exact resolved
  | true =>
    cases addressed expr with
    | composite span type elements =>
      rw [Expr.withFields, exprWithFields?_eq_map]
      rfl
    | _ => exact resolved

theorem returned_withFields (scope : Scope) (signature : Signature) (results : List Expr) :
    returned (scope.map (Expr.withFields change)) signature (exprsWithFields change results) =
      (returned scope signature results).map (Update.map (Expr.withFields change)) := by
  have bound : ∀ value : Option Expr,
      (value.map (Expr.withFields change)).bind (updateOf (scope.map (Expr.withFields change)) signature.kind) =
        (value.bind (updateOf scope signature.kind)).map (Update.map (Expr.withFields change)) := by
    intro value
    cases value with
    | none => rfl
    | some expr => exact updateOf_withFields change scope signature.kind expr
  unfold returned
  rw [exprsWithFields_eq_map, ← bound]
  split
  · rw [List.head?_map]
  · rw [List.getElem?_map]

theorem adapterUsage?_withFields (scope : Scope) (chain : Chain) :
    adapterUsage? (scope.map (Expr.withFields change)) (chain.map (Expr.withFields change)) =
      adapterUsage? scope chain := by
  have hasContext : ∀ prepared : Chain,
      ((prepared.map (Expr.withFields change)).args.any fun arg =>
        ((scope.map (Expr.withFields change)).resolve arg).any Chain.isContextItself) =
      prepared.args.any fun arg => (scope.resolve arg).any Chain.isContextItself := by
    intro prepared
    rw [Chain.args_map, List.any_map]
    congr 1
    funext arg
    rw [Function.comp_apply, Scope.resolve_withFields]
    cases scope.resolve arg with
    | none => rfl
    | some value => exact value.isContextItself_map _
  have prepared : ((chain.map (Expr.withFields change)).ancestors.takeWhile Chain.hasName).find?
        (fun ancestor => startsWith "Prepare" ancestor.name) =
      ((chain.ancestors.takeWhile Chain.hasName).find? fun ancestor => startsWith "Prepare" ancestor.name).map
        (Chain.map (Expr.withFields change)) := by
    rw [Chain.ancestors_map, List.takeWhile_map, List.find?_map]
    simp only [Function.comp_def, Chain.hasName_map, Chain.name_map]
  unfold adapterUsage?
  simp only [prepared, Chain.args_map, Chain.name_map, List.isEmpty_map]
  split
  · cases (chain.ancestors.takeWhile Chain.hasName).find? fun ancestor => startsWith "Prepare" ancestor.name with
    | none => rfl
    | some found =>
      simp only [Option.map_some, Option.bind_some, Chain.name_map]
      rw [hasContext]
  · rfl

theorem callStatement_withFields (walk : Walk) (function : Expr) (args : List Expr) :
    (walk.map (Expr.withFields change)).callStatement (function.withFields change) (exprsWithFields change args) =
      (walk.callStatement function args).map (Expr.withFields change) := by
  have resolved : (walk.map (Expr.withFields change)).scope.resolve (function.withFields change) =
      (walk.scope.resolve function).map (Chain.map (Expr.withFields change)) :=
    walk.scope.resolve_withFields change function
  have usage : ∀ chain : Chain,
      adapterUsage? (walk.map (Expr.withFields change)).scope (chain.map (Expr.withFields change)) =
      adapterUsage? walk.scope chain := adapterUsage?_withFields change walk.scope
  unfold callStatement
  rw [resolved]
  cases walk.scope.resolve function with
  | none => rfl
  | some chain =>
    simp only [Option.map_some, Chain.isDirect_map, Chain.name_map, usage]
    split
    · match args with
      | [] => rfl
      | [arg] =>
        exact congrArg (fun defaults => Walk.use { walk.map (Expr.withFields change) with defaults } chain.name)
          (walk.defaults.told_map _ chain.name arg)
      | _ :: _ :: _ => rfl
    · split <;> rfl

/-! ## Statements -/

/-- The result of a statement, with the fields of function literals changed. -/
abbrev changed (result : Flow × Walk) : Flow × Walk :=
  (result.1.map (Expr.withFields change), result.2.map (Expr.withFields change))

mutual

theorem stmt_withFields (signature : Signature) : (stmt : Stmt) → (walk : Walk) →
    Walk.stmt signature (stmt.withFields change) (walk.map (Expr.withFields change)) =
      changed change (Walk.stmt signature stmt walk)
  | .labeled _ inner, walk => by
    simp only [Stmt.withFields, Walk.stmt]
    exact stmt_withFields signature inner walk
  | .constDecl specs, walk => by
    simp only [Stmt.withFields, Walk.stmt, names_specsWithFields]
    exact congrArg (fun scope => (Flow.onward, { walk.map (Expr.withFields change) with scope }))
      (walk.scope.clear_map _ _)
  | .typeDecl names, walk => by
    simp only [Stmt.withFields, Walk.stmt]
    exact congrArg (fun scope => (Flow.onward, { walk.map (Expr.withFields change) with scope }))
      (walk.scope.clear_map _ names)
  | .varDecl specs, walk => by
    simp only [Stmt.withFields, Walk.stmt]
    exact congrArg (fun scope => (Flow.onward, { walk.map (Expr.withFields change) with scope }))
      (declare_withFields change walk.scope specs)
  | .assign targets values, walk => by
    have names : (exprsWithFields change targets).map Scope.plainName? = targets.map Scope.plainName? := by
      rw [exprsWithFields_eq_map, List.map_map]
      exact List.map_congr_left fun target _ => Scope.plainName?_withFields change target
    simp only [Stmt.withFields, Walk.stmt, names]
    exact congrArg (fun scope => (Flow.onward, { walk.map (Expr.withFields change) with scope }))
      (walk.scope.assign_withFields change _ values)
  | .expr value, walk => by
    cases value with
    | call span function args =>
      simp only [Stmt.withFields, Expr.withFields, Walk.stmt, callStatement_withFields]
      rfl
    | _ => rfl
  | .ret results, walk => by
    simp only [Stmt.withFields, Walk.stmt]
    exact congrArg (fun update => (Flow.out update, walk.map (Expr.withFields change)))
      (returned_withFields change walk.scope signature results)
  | .branch _, walk => rfl
  | .block body, walk | .switch body, walk | .typeSwitch body, walk | .select body, walk | .forLoop body, walk
  | .range body, walk => by
    simp only [Stmt.withFields, Walk.stmt]
    rw [inBlock_map _ walk (stmts_withFields signature body)]
    rfl
  | .ifElse cond body alternative, walk => by
    have afterwards : SameRun (Expr.withFields change)
        (fun inner =>
          goOn (fun inner => (none, inner)) (Walk.stmt? signature (stmtWithFields? change alternative) inner))
        (fun inner => goOn (fun inner => (none, inner)) (Walk.stmt? signature alternative inner)) := by
      intro inner
      dsimp only
      rw [stmt?_withFields signature alternative inner]
      exact goOn_map _ (fun _ => rfl) _
    have afterBody := inBranch_map _ walk (stmts_withFields signature body) (some ⟨[cond], false⟩)
    have afterBoth := inBranch_map _ (walk.inBranch (some ⟨[cond], false⟩) fun inner => Walk.stmts signature body inner)
      afterwards (some ⟨[cond], true⟩)
    rw [← afterBody] at afterBoth
    simp only [Stmt.withFields, Walk.stmt]
    exact congrArg (Prod.mk Flow.onward) afterBoth
  | .caseClause alternatives body, walk => by
    have guard : (if (exprsWithFields change alternatives).isEmpty then none
          else some ⟨exprsWithFields change alternatives, false⟩ : Option Guard) =
        (if alternatives.isEmpty then none else some ⟨alternatives, false⟩ : Option Guard).map
          (Guard.map (Expr.withFields change)) := by
      rw [exprsWithFields_eq_map, List.isEmpty_map]
      split <;> rfl
    simp only [Stmt.withFields, Walk.stmt, guard]
    exact congrArg (Prod.mk Flow.onward) (inBranch_map _ walk (stmts_withFields signature body) _)
  | .commClause comm body, walk => by
    have run : SameRun (Expr.withFields change)
        (fun inner => goOn (fun inner => Walk.stmts signature (stmtsWithFields change body) inner)
          (Walk.stmt? signature (stmtWithFields? change comm) inner))
        (fun inner => goOn (fun inner => Walk.stmts signature body inner) (Walk.stmt? signature comm inner)) := by
      intro inner
      dsimp only
      rw [stmt?_withFields signature comm inner]
      exact goOn_map _ (stmts_withFields signature body) _
    simp only [Stmt.withFields, Walk.stmt]
    rw [inBlock_map _ walk run]
    rfl
  | .defer _, _ | .go _, _ | .send _ _, _ | .incDec _, _ | .empty, _ => rfl

theorem stmt?_withFields (signature : Signature) : (stmt : Option Stmt) → (walk : Walk) →
    Walk.stmt? signature (stmtWithFields? change stmt) (walk.map (Expr.withFields change)) =
      changed change (Walk.stmt? signature stmt walk)
  | none, walk => rfl
  | some stmt, walk => by
    simp only [stmtWithFields?, Walk.stmt?]
    exact stmt_withFields signature stmt walk

theorem stmts_withFields (signature : Signature) : (list : List Stmt) →
    SameRun (Expr.withFields change) (Walk.stmts signature (stmtsWithFields change list)) (Walk.stmts signature list)
  | [] => fun walk => rfl
  | first :: rest => fun walk => by
    simp only [stmtsWithFields, Walk.stmts]
    rw [stmt_withFields signature first walk]
    exact goOn_map _ (stmts_withFields signature rest) _

end

end Walk

/-- **Function literals are not looked into**: a body with other fields is followed in the same way. -/
theorem walk_withFields (signature : Signature) (body : List Stmt) :
    walk signature (stmtsWithFields change body) = (walk signature body).map (Expr.withFields change) :=
  Walk.inBlock_map _ { scope := .root signature.contextArg } (Walk.stmts_withFields change signature body)

end StepChart
