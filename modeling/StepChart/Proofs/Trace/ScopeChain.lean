import StepChart.Proofs.Trace.ReachedReturns

/-!
# Chains of scopes

Everything that is done to the scopes of a body: a scope is opened inside the innermost one or left again,
and names are bound, assigned or declared in the innermost one. `Nest` is the plain reading, a stack of
environments of which only the innermost changes; an assignment in it is simultaneous. `scopes_read_as_nest`
says that scopes read the same way after any sequence of acts, and that nothing that is done inside a scope
can be seen from around it.
-/

namespace StepChart

open Syntax

/-! ## Acts -/

/-- What is done to scopes while a body is followed. -/
inductive ScopeAct where
  | enter (guard : Option Guard)
  | leave
  | set (name : String) (value : Option Chain)
  | assign (targets : List (Option String)) (values : List Expr)
  | constDecl (specs : List ValueSpec)
  | varDecl (specs : List ValueSpec)
  | typeDecl (names : List String)

namespace ScopeAct

/-- How many scopes further in an act leads, seen from a scope that is `depth` scopes further out; there is
no answer if the act leaves that scope. -/
def depth? (depth : Nat) : ScopeAct → Option Nat
  | enter _ => some (depth + 1)
  | leave => if depth = 0 then none else some (depth - 1)
  | _ => some depth

/-- How many scopes further in acts lead, if they stay inside the scope that is `depth` scopes further out. -/
def depthAfter? (depth : Nat) (acts : List ScopeAct) : Option Nat := acts.foldlM depth? depth

/-- The acts inside a new scope, which is left after them. -/
def within (guard : Option Guard) (acts : List ScopeAct) : List ScopeAct := enter guard :: (acts ++ [leave])

/-- The acts in a branch, whose list of statements has a scope of its own. -/
def inBranch (guard : Option Guard) (acts : List ScopeAct) : List ScopeAct := within guard (within none acts)

/-- The acts leave all scopes that they enter, and no others. -/
def Balanced (acts : List ScopeAct) : Prop := ∀ depth, depthAfter? depth acts = some depth

theorem Balanced.nil : Balanced [] := fun _ => rfl

theorem Balanced.append {first second : List ScopeAct} (one : Balanced first) (two : Balanced second) :
    Balanced (first ++ second) := by
  intro depth
  have start : first.foldlM depth? depth = some depth := one depth
  rw [depthAfter?, List.foldlM_append, start]
  exact two depth

theorem Balanced.within {acts : List ScopeAct} (balanced : Balanced acts) (guard : Option Guard) :
    Balanced (within guard acts) := by
  intro depth
  have inside : acts.foldlM depth? (depth + 1) = some (depth + 1) := balanced (depth + 1)
  show (acts ++ [leave]).foldlM depth? (depth + 1) = some depth
  rw [List.foldlM_append, inside]
  rfl

theorem Balanced.inBranch {acts : List ScopeAct} (balanced : Balanced acts) (guard : Option Guard) :
    Balanced (inBranch guard acts) :=
  (balanced.within none).within guard

end ScopeAct

namespace Scope

/-- The scopes made of a list of frames, from the inside out. -/
def ofFrames (contextArg : String) : List Frame → List Scope
  | [] => []
  | frame :: outer => ⟨contextArg, frame, outer⟩ :: ofFrames contextArg outer

/-- The scopes around a scope, from the inside out. -/
def around (scope : Scope) : List Scope := ofFrames scope.contextArg scope.outer

/-- The scope around a scope; the outermost one is never left. -/
def leave (scope : Scope) : Scope := scope.around.head?.getD scope

/-- What an act makes of a scope. -/
def act (scope : Scope) : ScopeAct → Scope
  | .enter guard => scope.spawn guard
  | .leave => scope.leave
  | .set name value => scope.set name value
  | .assign targets values => scope.assign targets values
  | .constDecl specs => scope.clear (specs.flatMap (·.names))
  | .varDecl specs => Walk.declare scope specs
  | .typeDecl names => scope.clear names

/-- What acts make of a scope, one after the other. -/
def run (scope : Scope) (acts : List ScopeAct) : Scope := acts.foldl act scope

end Scope

/-- Environments inside one another: the innermost one, and those around it from the inside out. -/
structure Nest where
  here : Environment
  around : List Environment

namespace Nest

/-- The environment of a body before its first block. -/
def start (contextArg : String) : Nest := ⟨.start contextArg, []⟩

/-- What an act makes of environments: a new one starts as a copy of the innermost one, leaving forgets the
innermost one, and everything else changes the innermost one alone. -/
def act (nest : Nest) : ScopeAct → Nest
  | .enter _ => ⟨nest.here, nest.here :: nest.around⟩
  | .leave =>
    match nest.around with
    | [] => nest
    | here :: around => ⟨here, around⟩
  | .set name value => { nest with here := fun other => if other = name then value else nest.here other }
  | .assign targets values => { nest with here := nest.here.assigned targets values }
  | .constDecl specs =>
    { nest with here := fun name => if name ∈ specs.flatMap (·.names) then none else nest.here name }
  | .varDecl specs =>
    { nest with here := specs.foldl (fun names spec => names.assigned (spec.names.map some) spec.values) nest.here }
  | .typeDecl names => { nest with here := fun name => if name ∈ names then none else nest.here name }

/-- What acts make of environments, one after the other. -/
def run (nest : Nest) (acts : List ScopeAct) : Nest := acts.foldl act nest

end Nest

/-! ## Scopes around a scope -/

namespace Scope

variable {scope : Scope}

@[simp] theorem around_spawn (scope : Scope) (guard : Option Guard) :
    (scope.spawn guard).around = scope :: scope.around := rfl

theorem around_leave (scope : Scope) : scope.leave.around = scope.around.tail := by
  obtain ⟨contextArg, frame, outer⟩ := scope
  cases outer <;> rfl

@[simp] theorem around_set (scope : Scope) (name : String) (value : Option Chain) :
    (scope.set name value).around = scope.around := by
  unfold set
  cases scope.frame.aliases with
  | some aliases => rfl
  | none =>
    dsimp only
    split <;> rfl

@[simp] theorem around_bind (scope : Scope) (targets : List (Option String)) (values : List (Option Chain)) :
    (scope.bind targets values).around = scope.around := by
  unfold bind
  induction targets.zipIdx generalizing scope with
  | nil => rfl
  | cons entry entries ih =>
    rw [List.foldl_cons, ih]
    split
    · split
      · rfl
      · exact around_set scope _ _
    · rfl

@[simp] theorem around_clear (scope : Scope) (names : List String) : (scope.clear names).around = scope.around := by
  unfold clear
  induction names generalizing scope with
  | nil => rfl
  | cons name names ih => rw [List.foldl_cons, ih, around_set]

@[simp] theorem around_declare (scope : Scope) (specs : List ValueSpec) :
    (Walk.declare scope specs).around = scope.around := by
  unfold Walk.declare
  induction specs generalizing scope with
  | nil => rfl
  | cons spec specs ih => rw [List.foldl_cons, ih, assign, around_bind]

/-- One act changes no scope around the innermost one. -/
theorem around_act {act : ScopeAct} {depth deeper : Nat} (stays : act.depth? depth = some deeper) :
    (scope.act act).around.drop deeper = scope.around.drop depth := by
  cases act with
  | enter guard =>
    obtain rfl : depth + 1 = deeper := Option.some.inj stays
    rfl
  | leave =>
    simp only [ScopeAct.depth?] at stays
    split at stays
    · cases stays
    · next inside =>
      obtain rfl : depth - 1 = deeper := Option.some.inj stays
      rw [Scope.act, around_leave, ← List.drop_one, List.drop_drop]
      congr 1
      omega
  | _ =>
    obtain rfl : depth = deeper := Option.some.inj stays
    simp only [Scope.act, assign, around_set, around_bind, around_clear, around_declare]

/-- **Acts inside a scope change no scope around it.** -/
theorem around_run {acts : List ScopeAct} {depth deeper : Nat} (stays : ScopeAct.depthAfter? depth acts = some deeper) :
    (scope.run acts).around.drop deeper = scope.around.drop depth := by
  induction acts generalizing scope depth with
  | nil =>
    obtain rfl : depth = deeper := Option.some.inj stays
    rfl
  | cons act acts ih =>
    obtain ⟨between, first, rest⟩ := Option.bind_eq_some_iff.1 stays
    exact (ih rest).trans (around_act first)

theorem run_append (scope : Scope) (first second : List ScopeAct) :
    scope.run (first ++ second) = (scope.run first).run second :=
  List.foldl_append

/-- What is done inside a new scope is forgotten with it. -/
theorem run_within (scope : Scope) (guard : Option Guard) {acts : List ScopeAct} (balanced : ScopeAct.Balanced acts) :
    scope.run (ScopeAct.within guard acts) = scope := by
  have same : ((scope.spawn guard).run acts).around = scope :: scope.around := around_run (balanced 0)
  show (scope.spawn guard).run (acts ++ [.leave]) = scope
  rw [run_append]
  show ((scope.spawn guard).run acts).leave = scope
  rw [leave, same]
  rfl

theorem run_inBranch (scope : Scope) (guard : Option Guard) {acts : List ScopeAct} (balanced : ScopeAct.Balanced acts) :
    scope.run (ScopeAct.inBranch guard acts) = scope :=
  run_within scope guard (balanced.within none)

/-! ## Reading scopes -/

/-- What can be looked up in a scope and in the scopes around it. -/
def nest (scope : Scope) : Nest := ⟨scope.lookup, scope.around.map lookup⟩

/-- **One act reads as it does in plain environments.** -/
theorem nest_act (scope : Scope) (act : ScopeAct) : (scope.act act).nest = scope.nest.act act := by
  have reads : scope.Reads scope.lookup scope.guard? := ⟨rfl, rfl⟩
  have inside : ∀ {after : Scope} {here : Environment}, after.lookup = here → after.around = scope.around →
      after.nest = { scope.nest with here } := by
    rintro after _ rfl same
    rw [nest, same]
    rfl
  cases act with
  | enter guard =>
    show Nest.mk (scope.spawn guard).lookup _ = _
    rw [(reads.spawn guard).lookup]
    rfl
  | leave =>
    obtain ⟨contextArg, frame, outer⟩ := scope
    cases outer <;> rfl
  | set name value =>
    refine inside ?_ (around_set scope name value)
    rw [Scope.act, lookup_set]
    funext other
    rw [Function.update_apply]
    rfl
  | assign targets values =>
    refine inside ?_ (around_bind scope targets _)
    rw [Scope.act, (reads.assign targets values).lookup, Environment.assign_eq_assigned]
    rfl
  | constDecl specs =>
    refine inside ?_ (around_clear scope _)
    rw [Scope.act, (reads.clear _).lookup]
    exact funext fun name => Environment.clear_apply _ _ name
  | varDecl specs =>
    refine inside ?_ (around_declare scope specs)
    rw [Scope.act, (reads.declare specs).lookup]
    simp only [Environment.declare, Environment.assign_eq_assigned]
    rfl
  | typeDecl names =>
    refine inside ?_ (around_clear scope names)
    rw [Scope.act, (reads.clear names).lookup]
    exact funext fun name => Environment.clear_apply _ _ name

theorem nest_run (scope : Scope) (acts : List ScopeAct) : (scope.run acts).nest = scope.nest.run acts := by
  unfold run Nest.run
  induction acts generalizing scope with
  | nil => rfl
  | cons act acts ih => rw [List.foldl_cons, ih, nest_act, List.foldl_cons]

end Scope

/-! ## Statements -/

mutual

/-- What following a statement does to scopes. -/
def Syntax.Stmt.acts : Stmt → List ScopeAct
  | .labeled _ inner => inner.acts
  | .constDecl specs => [.constDecl specs]
  | .varDecl specs => [.varDecl specs]
  | .typeDecl names => [.typeDecl names]
  | .assign targets values => [.assign (targets.map Scope.plainName?) values]
  | .block body | .switch body | .typeSwitch body | .select body | .forLoop body | .range body
  | .commClause none body => ScopeAct.within none (actsIn body)
  | .commClause (some comm) body => ScopeAct.within none (comm.acts ++ if comm.leaves then [] else actsIn body)
  | .ifElse cond body none =>
    ScopeAct.inBranch (some ⟨[cond], false⟩) (actsIn body) ++ ScopeAct.inBranch (some ⟨[cond], true⟩) []
  | .ifElse cond body (some alternative) =>
    ScopeAct.inBranch (some ⟨[cond], false⟩) (actsIn body) ++ ScopeAct.inBranch (some ⟨[cond], true⟩) alternative.acts
  | .caseClause alternatives body =>
    ScopeAct.inBranch (if alternatives.isEmpty then none else some ⟨alternatives, false⟩) (actsIn body)
  | _ => []

/-- What following a list of statements does to scopes, up to the statement that leaves the list. -/
def actsIn : List Stmt → List ScopeAct
  | [] => []
  | first :: rest => first.acts ++ if first.leaves then [] else actsIn rest

end

mutual

theorem balanced_acts : ∀ stmt : Stmt, ScopeAct.Balanced stmt.acts
  | .labeled _ inner => balanced_acts inner
  | .block body | .switch body | .typeSwitch body | .select body | .forLoop body | .range body
  | .commClause none body => (balanced_actsIn body).within none
  | .commClause (some comm) body => by
    refine ScopeAct.Balanced.within ((balanced_acts comm).append ?_) none
    split
    · exact .nil
    · exact balanced_actsIn body
  | .ifElse _ body none => ((balanced_actsIn body).inBranch _).append (ScopeAct.Balanced.nil.inBranch _)
  | .ifElse _ body (some alternative) =>
    ((balanced_actsIn body).inBranch _).append ((balanced_acts alternative).inBranch _)
  | .caseClause _ body => (balanced_actsIn body).inBranch _
  | .constDecl _ | .varDecl _ | .typeDecl _ | .assign _ _ => fun _ => rfl
  | .expr _ | .ret _ | .branch _ | .defer _ | .go _ | .send _ _ | .incDec _ | .empty => .nil

theorem balanced_actsIn : ∀ list : List Stmt, ScopeAct.Balanced (actsIn list)
  | [] => .nil
  | first :: rest => by
    refine (balanced_acts first).append ?_
    split
    · exact .nil
    · exact balanced_actsIn rest

end

namespace Walk

/-- A statement does these acts to the scope, and leaves its list or not. -/
structure Acts (acts : List ScopeAct) (leaves : Bool) (walk : Walk) (result : Flow × Walk) : Prop where
  scope : result.2.scope = walk.scope.run acts
  flow : leaves = true ↔ ∃ update, result.1 = .out update

variable {walk : Walk}

theorem Acts.onward {acts : List ScopeAct} {after : Walk} (scope : after.scope = walk.scope.run acts) :
    Acts acts false walk (.onward, after) :=
  ⟨scope, by simp⟩

theorem scope_callStatement (walk : Walk) (function : Expr) (args : List Expr) :
    (walk.callStatement function args).scope = walk.scope := by
  unfold callStatement
  split
  · rfl
  · split
    · split <;> rfl
    · split <;> rfl

theorem scope_inBlock (walk : Walk) (run : Walk → Option Update × Walk) : (walk.inBlock run).scope = walk.scope :=
  scope_leave _ _ _

theorem Acts.inBlock {acts : List ScopeAct} (balanced : ScopeAct.Balanced acts) (run : Walk → Option Update × Walk) :
    Acts (ScopeAct.within none acts) false walk (.onward, walk.inBlock run) := by
  refine .onward ?_
  rw [scope_inBlock, Scope.run_within _ none balanced]

theorem stmt_acts (signature : Signature) : ∀ (stmt : Stmt) (walk : Walk),
    Acts stmt.acts stmt.leaves walk (Walk.stmt signature stmt walk)
  | .labeled _ inner, walk => by
    rw [Walk.stmt]
    exact stmt_acts signature inner walk
  | .constDecl _, walk | .typeDecl _, walk | .varDecl _, walk | .assign _ _, walk => by
    rw [Walk.stmt]
    exact .onward rfl
  | .expr value, walk => by
    by_cases isCall : ∃ span function args, value = .call span function args
    · obtain ⟨span, function, args, rfl⟩ := isCall
      rw [Walk.stmt]
      exact .onward (walk.scope_callStatement function args)
    · rw [Walk.stmt]
      · exact .onward rfl
      · simp_all
  | .ret _, walk | .branch _, walk => by
    rw [Walk.stmt]
    exact ⟨rfl, by simp [Stmt.leaves]⟩
  | .block body, _ | .switch body, _ | .typeSwitch body, _ | .select body, _ | .forLoop body, _ | .range body, _
  | .commClause none body, _ => by
    rw [Walk.stmt]
    exact .inBlock (balanced_actsIn body) _
  | .commClause (some comm) body, walk => by
    rw [Walk.stmt]
    exact .inBlock (balanced_actsIn (comm :: body)) _
  | .ifElse cond body none, walk => by
    rw [Walk.stmt]
    refine .onward ?_
    rw [Stmt.acts, Scope.run_append, Scope.run_inBranch _ _ (balanced_actsIn body), Scope.run_inBranch _ _ .nil]
    rfl
  | .ifElse cond body (some alternative), walk => by
    rw [Walk.stmt]
    refine .onward ?_
    rw [Stmt.acts, Scope.run_append, Scope.run_inBranch _ _ (balanced_actsIn body),
      Scope.run_inBranch _ _ (balanced_acts alternative)]
    rfl
  | .caseClause alternatives body, walk => by
    rw [Walk.stmt]
    refine .onward ?_
    rw [Stmt.acts, Scope.run_inBranch _ _ (balanced_actsIn body)]
    rfl
  | .defer _, _ | .go _, _ | .send _ _, _ | .incDec _, _ | .empty, _ => by
    rw [Walk.stmt]
    exact .onward rfl

/-- **Following a list of statements does the acts that are written in it.** -/
theorem stmts_acts (signature : Signature) (list : List Stmt) (walk : Walk) :
    (Walk.stmts signature list walk).2.scope = walk.scope.run (actsIn list) := by
  induction list generalizing walk with
  | nil =>
    rw [Walk.stmts]
    rfl
  | cons first rest ih =>
    rw [Walk.stmts, actsIn, Scope.run_append]
    have head := stmt_acts signature first walk
    generalize Walk.stmt signature first walk = result at head ⊢
    obtain ⟨flow, after⟩ := result
    obtain ⟨scope, leaving⟩ := head
    rw [← scope]
    cases flow with
    | onward =>
      have stays : first.leaves = false := by simpa using leaving
      rw [stays]
      exact ih after
    | out update =>
      have leaves : first.leaves = true := leaving.2 ⟨update, rfl⟩
      rw [leaves]
      rfl

end Walk

/-! ## Bodies -/

theorem Scope.nest_root (contextArg : String) : (root contextArg).nest = .start contextArg := by
  rw [nest, (Reads.root contextArg).lookup]
  rfl

/-- **Scopes read as plain environments.** After any acts, each name stands for the same in the innermost
scope, and in each scope around it, as in the nest of environments that the acts make. Whatever is done
inside a scope without leaving it, the scopes around it read as before. And following a list of statements
does nothing to scopes but the acts that are written in it, which leave all scopes that they enter. -/
theorem scopes_read_as_nest (contextArg : String) (acts : List ScopeAct) :
    let scope := (Scope.root contextArg).run acts
    scope.nest = (Nest.start contextArg).run acts ∧
    (∀ more depth, ScopeAct.depthAfter? 0 more = some depth →
      (scope.run more).nest.around.drop depth = scope.nest.around) ∧
    ∀ (signature : Signature) (list : List Stmt) (walk : Walk),
      (Walk.stmts signature list { walk with scope }).2.scope = scope.run (actsIn list) ∧
        ScopeAct.depthAfter? 0 (actsIn list) = some 0 := by
  intro scope
  refine ⟨?_, fun more depth inside => ?_, fun signature list walk => ?_⟩
  · rw [Scope.nest_run, Scope.nest_root]
  · have same : (scope.run more).around.drop depth = scope.around := Scope.around_run inside
    rw [Scope.nest, Scope.nest, ← same, List.map_drop]
  · exact ⟨Walk.stmts_acts signature list _, balanced_actsIn list 0⟩

/-- Two names are swapped in a scope; around it they stand for what they stood for. -/
example :
    let item (name : String) : Expr := .selector default (.ident default "ctx") name
    let scope := (Scope.root "ctx").run [.assign [some "a", some "b"] [item "A", item "B"], .enter none,
      .assign [some "a", some "b"] [.ident default "b", .ident default "a"]]
    scope.lookup "a" = some (.child (.context none) "B" none) ∧
      scope.leave.lookup "a" = some (.child (.context none) "A" none) :=
  ⟨rfl, rfl⟩

end StepChart
