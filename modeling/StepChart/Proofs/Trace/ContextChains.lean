import StepChart.Proofs.Trace.Trail

/-!
# What names stand for

Only chains that start at the context are given names. So at every place of a body a name stands for such a chain or for
nothing (`Site.standing_contextOnly`), and what a return hands back was written there as an expression over such names
(`exitsAt_denoted`).
-/

namespace StepChart

open Syntax

variable {test : Expr → Bool}

/-! ## Names -/

namespace Environment

/-- All chains that names stand for start at the context. -/
def ContextOnly (names : Environment) : Prop := names.Every fun chain => chain.isContext = true

variable {names : Environment}

theorem ContextOnly.start (contextArg : String) : (start contextArg).ContextOnly := by
  intro name chain found
  unfold Environment.start at found
  split at found
  · cases found
    rfl
  · cases found

theorem ContextOnly.assign (only : names.ContextOnly) (targets : List (Option String)) (values : List Expr) :
    (names.assign targets values).ContextOnly := by
  refine Every.bind only targets fun chain member => ?_
  obtain ⟨value, -, found⟩ := List.mem_map.1 member
  exact (Option.filter_eq_some_iff.1 found).2

theorem ContextOnly.declare (only : names.ContextOnly) (specs : List ValueSpec) : (names.declare specs).ContextOnly := by
  unfold Environment.declare
  induction specs generalizing names with
  | nil => exact only
  | cons spec specs ih => exact ih (only.assign _ _)

end Environment

/-! ## Places -/

namespace Standing

theorem names_call (standing : Standing) (function : Expr) (args : List Expr) :
    (standing.call function args).names = standing.names := by
  unfold call
  split
  · split <;> rfl
  · rfl

/-- A statement gives names to chains from the context only. -/
theorem after_contextOnly : ∀ (stmt : Stmt) {standing : Standing},
    standing.names.ContextOnly → (standing.after stmt).names.ContextOnly
  | .labeled _ inner, _, only => after_contextOnly inner only
  | .constDecl specs, _, only => Environment.Every.clear only _
  | .typeDecl names, _, only => Environment.Every.clear only names
  | .varDecl specs, _, only => only.declare specs
  | .assign targets values, _, only => only.assign (targets.map Scope.plainName?) values
  | .expr value, standing, only => by
    cases value with
    | call span function args =>
      rw [after, names_call]
      exact only
    | _ => exact only
  | .commClause (some comm) body, _, only => by
    rw [after]
    split
    · exact only
    · exact only
  | .block _, _, only | .switch _, _, only | .typeSwitch _, _, only | .select _, _, only | .forLoop _, _, only
  | .range _, _, only | .commClause none _, _, only | .caseClause _ _, _, only | .ifElse _ _ _, _, only
  | .ret _, _, only | .branch _, _, only | .defer _, _, only | .go _, _, only | .send _ _, _, only | .incDec _, _, only
  | .empty, _, only => only

theorem afterAll_contextOnly (list : List Stmt) {standing : Standing} (only : standing.names.ContextOnly) :
    (standing.afterAll list).names.ContextOnly := by
  induction list generalizing standing with
  | nil => exact only
  | cons first rest ih =>
    rw [afterAll]
    split
    · exact only
    · exact ih (after_contextOnly first only)

end Standing

namespace Site

/-- At every place, names stand for chains from the context only. -/
theorem standing_contextOnly : ∀ (site : Site) {start : Standing},
    start.names.ContextOnly → (site.standing start).names.ContextOnly
  | here before _, _, only => Standing.afterAll_contextOnly before only
  | inside before _ site, _, only => site.standing_contextOnly (Standing.afterAll_contextOnly before only)

/-! ## Results -/

theorem results_after (first : Stmt) (site : Site) : (site.after first).results = site.results := by
  cases site <;> rfl

/-- The test holds in the results of the returns at these places. -/
def Results (test : Expr → Bool) (sites : List Site) : Prop := ∀ site ∈ sites, exprsAll test site.results = true

theorem Results.append {sites others : List Site} (first : Results test sites) (second : Results test others) :
    Results test (sites ++ others) := fun site member => (List.mem_append.1 member).elim (first site) (second site)

theorem Results.inside {sites : List Site} (results : Results test sites) (guard : Option Guard) :
    Results test (sites.map (Site.inside [] guard)) := List.forall_mem_map.2 results

theorem Results.after {sites : List Site} (results : Results test sites) (first : Stmt) :
    Results test (sites.map (Site.after first)) := by
  refine List.forall_mem_map.2 fun site member => ?_
  rw [results_after]
  exact results site member

end Site

mutual

theorem returns_results : ∀ (stmt : Stmt), stmt.all test = true → Site.Results test stmt.returns
  | .labeled _ inner, every => returns_results inner every
  | .ret results, every => List.forall_mem_singleton.2 every
  | .block body, every | .switch body, every | .typeSwitch body, every | .select body, every
  | .forLoop body, every | .range body, every => (returnsIn_results body every).inside none
  | .commClause none body, every => (returnsIn_results body (Bool.and_eq_true_iff.1 every).2).inside none
  | .commClause (some comm) body, every => by
    obtain ⟨inComm, inBody⟩ := Bool.and_eq_true_iff.1 every
    exact ((returns_results comm inComm).append ((returnsIn_results body inBody).after comm)).inside none
  | .ifElse cond body none, every => by
    obtain ⟨inHead, -⟩ := Bool.and_eq_true_iff.1 every
    exact (returnsIn_results body (Bool.and_eq_true_iff.1 inHead).2).inside _
  | .ifElse cond body (some alternative), every => by
    obtain ⟨inHead, inAlternative⟩ := Bool.and_eq_true_iff.1 every
    have inBody := (Bool.and_eq_true_iff.1 inHead).2
    exact ((returnsIn_results body inBody).inside _).append ((returns_results alternative inAlternative).inside _)
  | .caseClause alternatives body, every => (returnsIn_results body (Bool.and_eq_true_iff.1 every).2).inside _
  | .constDecl _, _ | .varDecl _, _ | .typeDecl _, _ | .expr _, _ | .assign _ _, _ | .branch _, _ | .defer _, _
  | .go _, _ | .send _ _, _ | .incDec _, _ | .empty, _ => List.forall_mem_nil _

/-- What a body returns is written in it. -/
theorem returnsIn_results : ∀ (list : List Stmt), stmtsAll test list = true → Site.Results test (returnsIn list)
  | [], _ => List.forall_mem_nil _
  | first :: rest, every => by
    obtain ⟨inFirst, inRest⟩ := Bool.and_eq_true_iff.1 every
    exact (returns_results first inFirst).append ((returnsIn_results rest inRest).after first)

end

/-! ## Exits -/

/-- The chain is denoted by an expression in which the test holds, over names that stand for chains from the context. -/
def Chain.Denoted (test : Expr → Bool) (chain : Chain) : Prop :=
  ∃ (names : Environment) (expr : Expr), names.ContextOnly ∧ expr.all test = true ∧ names.resolve expr = some chain

theorem resolve_of_returned? {names : Environment} {signature : Signature} {results : List Expr} {chain : Chain}
    (returned : names.returned? signature results = some (.chain chain)) :
    ∃ expr ∈ results, names.resolve expr = some chain := by
  obtain ⟨expr, isResult, update⟩ := Option.bind_eq_some_iff.1 returned
  refine ⟨expr, ?_, ?_⟩
  · split at isResult
    · exact List.mem_of_head? isResult
    · exact List.mem_of_getElem? isResult
  · unfold Environment.update? at update
    split at update
    · split at update <;> cases update
    · split at update <;> cases update
    · obtain ⟨found, resolved, same⟩ := Option.map_eq_some_iff.1 update
      cases same
      exact resolved

/-- **A chain that a return hands back** is denoted by an expression in the body. -/
theorem exitsAt_denoted {signature : Signature} {body : List Stmt} (every : stmtsAll test body = true)
    {entry : List Nat × Exit} (member : entry ∈ exitsAt signature none (.start signature.contextArg) body) {chain : Chain}
    (isChain : entry.2.update = .chain chain) : chain.Denoted test := by
  obtain ⟨site, isSite, located⟩ := List.mem_filterMap.1 member
  obtain ⟨exit, found, rfl⟩ := Option.map_eq_some_iff.1 located
  unfold Site.exitFrom at found
  split at found
  · obtain ⟨update, returned, rfl⟩ := Option.map_eq_some_iff.1 found
    cases isChain
    obtain ⟨expr, isResult, resolved⟩ := resolve_of_returned? returned
    have inExpr := exprsAll_iff.1 (returnsIn_results body every site isSite) expr isResult
    have only : (site.standing (.start signature.contextArg)).names.ContextOnly :=
      site.standing_contextOnly (.start signature.contextArg)
    exact ⟨_, expr, only, inExpr, resolved⟩
  · cases found

end StepChart
