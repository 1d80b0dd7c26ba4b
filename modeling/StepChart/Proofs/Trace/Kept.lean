import StepChart.Proofs.Syntax.Everywhere
import StepChart.Proofs.Trace.Environment

/-!
# Expressions that are kept

While a body is followed, expressions are kept for later: the arguments of calls in the chains that names
stand for, the defaults, and what the exits hand back. All of them were written in the body, so a test that
holds everywhere in the body holds of them. `walk_holds` is the main lemma.
-/

namespace StepChart

open Syntax

variable {test : Expr → Bool}

/-! ## Chains -/

/-- The test holds in all arguments of a chain. -/
def Chain.Holds (test : Expr → Bool) : Chain → Prop
  | .context call | .root _ call => exprsAll test (call.getD []) = true
  | .child parent _ call => parent.Holds test ∧ exprsAll test (call.getD []) = true

theorem Chain.Holds.args {chain : Chain} (holds : chain.Holds test) : ∀ arg ∈ chain.args, arg.all test = true := by
  rw [← exprsAll_iff]
  cases chain with
  | context call => exact holds
  | root name call => exact holds
  | child parent name call => exact holds.2

theorem Chain.Holds.called {chain : Chain} (holds : chain.Holds test) {args : List Expr}
    (every : exprsAll test args = true) : (chain.called args).Holds test := by
  cases chain with
  | context call => exact every
  | root name call => exact every
  | child parent name call => exact ⟨holds.1, every⟩

/-! ## Names -/

namespace Environment

/-- Something holds of all chains that names stand for. -/
def Every (every : Chain → Prop) (names : Environment) : Prop := ∀ name chain, names name = some chain → every chain

variable {names : Environment} {every : Chain → Prop}

theorem Every.update (before : names.Every every) (name : String) {value : Option Chain}
    (new : ∀ chain, value = some chain → every chain) : Every every (Function.update names name value) := by
  intro other chain found
  by_cases isName : other = name
  · subst isName
    rw [Function.update_self] at found
    exact new chain found
  · rw [Function.update_of_ne isName] at found
    exact before other chain found

theorem valueFor_mem {values : List (Option Chain)} {index : Nat} {chain : Chain}
    (found : Scope.valueFor values index = some chain) : some chain ∈ values := by
  unfold Scope.valueFor at found
  split at found
  next value => exact List.mem_singleton.2 found.symm
  next =>
    rw [Option.join_eq_some_iff] at found
    exact List.mem_of_getElem? found

theorem Every.bind (before : names.Every every) (targets : List (Option String)) {values : List (Option Chain)}
    (new : ∀ chain, some chain ∈ values → every chain) : (names.bind targets values).Every every := by
  unfold Environment.bind
  induction targets.zipIdx generalizing names with
  | nil => exact before
  | cons entry entries ih =>
    obtain ⟨target, index⟩ := entry
    refine ih ?_
    cases target with
    | none => exact before
    | some name =>
      dsimp only
      split
      · exact before
      · exact before.update name fun chain found => new chain (valueFor_mem found)

theorem Every.clear (before : names.Every every) (targets : List String) : (names.clear targets).Every every := by
  unfold Environment.clear
  induction targets generalizing names with
  | nil => exact before
  | cons name targets ih => exact ih (before.update name fun _ found => nomatch found)

/-- The test holds in all chains that names stand for. -/
def Holds (test : Expr → Bool) (names : Environment) : Prop :=
  ∀ name chain, names name = some chain → chain.Holds test

theorem Holds.start (contextArg : String) : (start contextArg).Holds test := by
  intro name chain found
  unfold Environment.start at found
  split at found
  · cases found
    rfl
  · cases found

theorem Holds.resolve (holds : names.Holds test) {expr : Expr} (every : expr.all test = true) {chain : Chain}
    (resolved : names.resolve expr = some chain) : chain.Holds test := by
  fun_induction Environment.resolve names expr generalizing chain with
  | case1 span operand field ih =>
    obtain ⟨parent, found, rfl⟩ := Option.map_eq_some_iff.1 resolved
    exact ⟨ih (Expr.all_selector every) found, rfl⟩
  | case2 span function args ih =>
    obtain ⟨called, found, rfl⟩ := Option.map_eq_some_iff.1 resolved
    obtain ⟨inFunction, inArgs⟩ := Expr.all_call every
    exact (ih inFunction found).called inArgs
  | case3 span name =>
    cases bound : names name with
    | none =>
      rw [bound] at resolved
      cases resolved
      rfl
    | some value =>
      rw [bound] at resolved
      cases resolved
      exact holds name value bound
  | case4 => cases resolved

theorem Holds.assign (holds : names.Holds test) (targets : List (Option String)) {values : List Expr}
    (every : exprsAll test values = true) : (names.assign targets values).Holds test := by
  refine Every.bind holds targets fun chain member => ?_
  obtain ⟨value, isValue, found⟩ := List.mem_map.1 member
  rw [Option.filter_eq_some_iff] at found
  exact holds.resolve (exprsAll_iff.1 every value isValue) found.1

theorem Holds.clear (holds : names.Holds test) (targets : List String) : (names.clear targets).Holds test :=
  Every.clear holds targets

theorem Holds.declare (holds : names.Holds test) {specs : List ValueSpec} (every : specsAll test specs = true) :
    (names.declare specs).Holds test := by
  have values := specsAll_iff.1 every
  clear every
  unfold Environment.declare
  induction specs generalizing names with
  | nil => exact holds
  | cons spec specs ih =>
    refine ih (holds.assign _ (values spec List.mem_cons_self)) fun other member => ?_
    exact values other (List.mem_cons_of_mem _ member)

end Environment

/-! ## Defaults and exits -/

/-- The expressions that are kept as defaults. -/
def Defaults.kept (defaults : Defaults) : List Expr :=
  defaults.migration.toList ++ defaults.errorHandler.toList ++ defaults.flags.toList

theorem Defaults.kept_told {defaults : Defaults} {name : String} {arg expr : Expr}
    (member : expr ∈ (defaults.told name arg).kept) : expr = arg ∨ expr ∈ defaults.kept := by
  unfold told at member
  split at member <;> simp only [kept, List.mem_append, Option.mem_toList, Option.some.injEq] at member ⊢ <;> grind

/-- The test holds in what an exit hands back. -/
def Update.Holds (test : Expr → Bool) : Update → Prop
  | .chain value => value.Holds test
  | .built type => exprAll? test type = true

/-- The test holds in what an exit hands back and in the defaults in force there. -/
structure Exit.Holds (test : Expr → Bool) (exit : Exit) : Prop where
  update : exit.update.Holds test
  defaults : exprsAll test exit.defaults.kept = true

namespace Walk

/-- The test holds in everything that a walk keeps. -/
structure Holds (test : Expr → Bool) (walk : Walk) : Prop where
  names : Environment.Holds test walk.scope.lookup
  defaults : exprsAll test walk.defaults.kept = true
  exits : ∀ exit ∈ walk.exits, exit.Holds test

variable {walk : Walk}

/-- The walk with other names, of which the test holds too. -/
theorem Holds.withScope (holds : walk.Holds test) {scope : Scope} (names : Environment.Holds test scope.lookup) :
    Walk.Holds test { walk with scope } :=
  ⟨names, holds.defaults, holds.exits⟩

theorem updateOf_holds {scope : Scope} (names : Environment.Holds test scope.lookup) {kind : Kind} {expr : Expr}
    (every : expr.all test = true) {update : Update} (found : updateOf scope kind expr = some update) :
    update.Holds test := by
  have resolved : ∀ {update : Update}, (scope.resolve expr).map .chain = some update → update.Holds test := by
    intro update found
    obtain ⟨chain, denoted, rfl⟩ := Option.map_eq_some_iff.1 found
    rw [Scope.Reads.resolve ⟨rfl, rfl⟩] at denoted
    exact names.resolve every denoted
  unfold updateOf at found
  split at found <;> dsimp only at found
  next span operand =>
    split at found
    next type elements _ =>
      cases found
      exact (Expr.all_composite (Expr.all_unary every)).1
    next => exact resolved found
  next =>
    split at found
    next type elements _ =>
      cases found
      exact (Expr.all_composite every).1
    next => exact resolved found

theorem returned_holds {scope : Scope} (names : Environment.Holds test scope.lookup) {signature : Signature}
    {results : List Expr} (every : exprsAll test results = true) {update : Update}
    (found : returned scope signature results = some update) : update.Holds test := by
  obtain ⟨expr, isResult, handed⟩ := Option.bind_eq_some_iff.1 found
  have member : expr ∈ results := by
    split at isResult
    · exact List.mem_of_head? isResult
    · exact List.mem_of_getElem? isResult
  exact updateOf_holds names (exprsAll_iff.1 every expr member) handed

theorem Holds.call (holds : walk.Holds test) (function : Expr) {args : List Expr} (every : exprsAll test args = true) :
    (walk.callStatement function args).Holds test := by
  have noted : ∀ usage : String, (walk.use usage).Holds test := fun _ => ⟨holds.names, holds.defaults, holds.exits⟩
  unfold callStatement
  split
  · exact holds
  · split
    · split
      · next chain _ _ _ arg =>
        refine ⟨holds.names, exprsAll_iff.2 fun expr member => ?_, holds.exits⟩
        rcases Defaults.kept_told member with rfl | old
        · exact exprsAll_iff.1 every _ (List.mem_singleton.2 rfl)
        · exact exprsAll_iff.1 holds.defaults expr old
      · exact holds
    · split
      · exact noted _
      · exact holds

/-! ## Lists and branches -/

/-- The test holds in all that is kept after a statement. -/
def Kept (test : Expr → Bool) (result : Flow × Walk) : Prop :=
  result.2.Holds test ∧ ∀ update, result.1 = .out (some update) → update.Holds test

/-- The test holds in all that is kept at the end of a list. -/
def KeptAll (test : Expr → Bool) (ended : Option Update × Walk) : Prop :=
  ended.2.Holds test ∧ ∀ update, ended.1 = some update → update.Holds test

theorem Kept.onward (holds : walk.Holds test) : Kept test (.onward, walk) :=
  ⟨holds, fun _ left => nomatch left⟩

theorem Kept.goOn {run : Walk → Option Update × Walk} {result : Flow × Walk} (kept : Kept test result)
    (rest : ∀ after : Walk, after.Holds test → KeptAll test (run after)) : KeptAll test (goOn run result) := by
  obtain ⟨flow, after⟩ := result
  cases flow with
  | onward => exact rest after kept.1
  | out update => exact ⟨kept.1, fun handed found => kept.2 handed (congrArg Flow.out found)⟩

theorem Holds.leave (holds : walk.Holds test) {scope : Scope} (names : Environment.Holds test scope.lookup)
    {update : Option Update} (handed : ∀ value, update = some value → value.Holds test) :
    (walk.leave scope update).Holds test := by
  cases update with
  | none => exact holds.withScope names
  | some update =>
    refine ⟨names, holds.defaults, fun exit member => ?_⟩
    rcases List.mem_append.1 member with old | new
    · exact holds.exits exit old
    · rw [List.mem_singleton.1 new]
      exact ⟨handed update rfl, holds.defaults⟩

theorem Holds.inBlock (holds : walk.Holds test) {run : Walk → Option Update × Walk}
    (kept : ∀ inner : Walk, inner.Holds test → KeptAll test (run inner)) : (walk.inBlock run).Holds test := by
  obtain ⟨inner, handed⟩ := kept { walk with scope := walk.scope.spawn none } (holds.withScope holds.names)
  exact inner.leave holds.names handed

theorem Holds.inBranch (holds : walk.Holds test) (guard : Option Guard) {run : Walk → Option Update × Walk}
    (kept : ∀ inner : Walk, inner.Holds test → KeptAll test (run inner)) : (walk.inBranch guard run).Holds test := by
  have branch : Walk.Holds test { walk with scope := walk.scope.spawn guard } := holds.withScope holds.names
  exact ⟨holds.names, holds.defaults, (branch.inBlock kept).exits⟩

/-! ## Statements -/

mutual

theorem stmt_kept (signature : Signature) : ∀ (stmt : Stmt) {walk : Walk}, stmt.all test = true → walk.Holds test →
    Kept test (Walk.stmt signature stmt walk)
  | .labeled _ inner, walk, every, holds => by
    rw [Walk.stmt]
    exact stmt_kept signature inner every holds
  | .constDecl specs, walk, every, holds => by
    rw [Walk.stmt]
    refine .onward (holds.withScope ?_)
    rw [(Scope.Reads.clear ⟨rfl, rfl⟩ _).lookup]
    exact holds.names.clear _
  | .typeDecl names, walk, every, holds => by
    rw [Walk.stmt]
    refine .onward (holds.withScope ?_)
    rw [(Scope.Reads.clear ⟨rfl, rfl⟩ _).lookup]
    exact holds.names.clear _
  | .varDecl specs, walk, every, holds => by
    rw [Walk.stmt]
    refine .onward (holds.withScope ?_)
    rw [(Scope.Reads.declare ⟨rfl, rfl⟩ _).lookup]
    exact holds.names.declare every
  | .assign targets values, walk, every, holds => by
    rw [Walk.stmt]
    refine .onward (holds.withScope ?_)
    rw [(Scope.Reads.assign ⟨rfl, rfl⟩ _ _).lookup]
    exact holds.names.assign _ (Bool.and_eq_true_iff.1 every).2
  | .expr value, walk, every, holds => by
    by_cases isCall : ∃ span function args, value = .call span function args
    · obtain ⟨span, function, args, rfl⟩ := isCall
      rw [Walk.stmt]
      exact .onward (holds.call function (Expr.all_call every).2)
    · rw [Walk.stmt]
      · exact .onward holds
      · simp_all
  | .ret results, walk, every, holds => by
    rw [Walk.stmt]
    refine ⟨holds, fun update found => ?_⟩
    exact returned_holds holds.names every (Flow.out.inj found)
  | .branch _, walk, every, holds => by
    rw [Walk.stmt]
    exact ⟨holds, fun _ found => nomatch found⟩
  | .block body, _, every, holds | .switch body, _, every, holds | .typeSwitch body, _, every, holds
  | .select body, _, every, holds | .forLoop body, _, every, holds | .range body, _, every, holds => by
    rw [Walk.stmt]
    exact .onward (holds.inBlock fun inner holdsInner => stmts_kept signature body every holdsInner)
  | .ifElse cond body alternative, walk, every, holds => by
    rw [Walk.stmt]
    obtain ⟨rest, inAlternative⟩ := Bool.and_eq_true_iff.1 every
    have inBody := (Bool.and_eq_true_iff.1 rest).2
    refine .onward (Holds.inBranch ?_ _ fun inner holdsInner => ?_)
    · exact holds.inBranch _ fun inner holdsInner => stmts_kept signature body inBody holdsInner
    · exact (stmt?_kept signature alternative inAlternative holdsInner).goOn fun after holdsAfter =>
        ⟨holdsAfter, fun _ found => nomatch found⟩
  | .caseClause alternatives body, walk, every, holds => by
    rw [Walk.stmt]
    exact .onward (holds.inBranch _ fun inner holdsInner =>
      stmts_kept signature body (Bool.and_eq_true_iff.1 every).2 holdsInner)
  | .commClause comm body, walk, every, holds => by
    rw [Walk.stmt]
    obtain ⟨inComm, inBody⟩ := Bool.and_eq_true_iff.1 every
    exact .onward (holds.inBlock fun inner holdsInner =>
      (stmt?_kept signature comm inComm holdsInner).goOn fun after holdsAfter =>
        stmts_kept signature body inBody holdsAfter)
  | .defer _, _, _, holds | .go _, _, _, holds | .send _ _, _, _, holds | .incDec _, _, _, holds
  | .empty, _, _, holds => by
    rw [Walk.stmt]
    exact .onward holds

theorem stmt?_kept (signature : Signature) : ∀ (stmt : Option Stmt) {walk : Walk}, stmtAll? test stmt = true →
    walk.Holds test → Kept test (Walk.stmt? signature stmt walk)
  | none, walk, _, holds => by
    rw [Walk.stmt?]
    exact .onward holds
  | some stmt, walk, every, holds => by
    rw [Walk.stmt?]
    exact stmt_kept signature stmt every holds

theorem stmts_kept (signature : Signature) : ∀ (list : List Stmt) {walk : Walk}, stmtsAll test list = true →
    walk.Holds test → KeptAll test (Walk.stmts signature list walk)
  | [], walk, _, holds => by
    rw [Walk.stmts]
    exact ⟨holds, fun _ found => nomatch found⟩
  | first :: rest, walk, every, holds => by
    rw [Walk.stmts]
    obtain ⟨inFirst, inRest⟩ := Bool.and_eq_true_iff.1 every
    exact (stmt_kept signature first inFirst holds).goOn fun after holdsAfter =>
      stmts_kept signature rest inRest holdsAfter

end

end Walk

/-- **Exits hold what the body holds**: a test that holds everywhere in a body holds in its exits. -/
theorem walk_holds (signature : Signature) {body : List Stmt} (every : stmtsAll test body = true) :
    (walk signature body).Holds test := by
  have start : Walk.Holds test { scope := .root signature.contextArg } := by
    refine ⟨?_, rfl, fun _ member => absurd member List.not_mem_nil⟩
    rw [(Scope.Reads.root signature.contextArg).lookup]
    exact .start signature.contextArg
  exact start.inBlock fun inner holdsInner => Walk.stmts_kept signature body every holdsInner

end StepChart
