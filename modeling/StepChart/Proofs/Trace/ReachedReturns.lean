import StepChart.Proofs.Trace.ReturnSites
import StepChart.Trace.Outline

/-!
# The exits of a body are its reached returns

Following a body notes an exit when the list that the exit ends is left, with the guard of the scope
around that list; a place in the body has its statements before it, list by list. `Follows` says what
following one statement comes to in terms of places, and `FollowsAll` does so for a list; together they
give `walk_exits`, the main lemma: the exits that are noted are those of the reached returns, in order.
-/

namespace StepChart

open Syntax

/-! ## Exits of places -/

namespace Site

variable (signature : Signature) (guard : Option Guard) (standing : Standing)

theorem exitFrom_here (results : List Expr) :
    (here [] results).exitFrom signature guard standing =
      (standing.names.returned? signature results).map fun update => ⟨update, guard, standing.defaults⟩ := rfl

theorem exitFrom_inside (inner : Option Guard) (site : Site) :
    (inside [] inner site).exitFrom signature guard standing = site.exitFrom signature (inner.or guard) standing := by
  simp only [exitFrom, reached, guard?, Site.standing, results, Standing.afterAll, List.all_nil, Bool.true_and,
    Option.or_assoc]

theorem exitFrom_after (first : Stmt) (site : Site) :
    (site.after first).exitFrom signature guard standing =
      if first.leaves then none else site.exitFrom signature guard (standing.after first) := by
  cases leaves : first.leaves <;>
    cases site <;>
    simp [exitFrom, after, reached, guard?, Site.standing, results, Standing.afterAll, leaves]

theorem filterMap_exitFrom_inside (inner : Option Guard) (sites : List Site) :
    (sites.map (inside [] inner)).filterMap (exitFrom signature guard standing) =
      sites.filterMap (exitFrom signature (inner.or guard) standing) := by
  rw [List.filterMap_map]
  congr 1
  funext site
  exact exitFrom_inside signature guard standing inner site

theorem filterMap_exitFrom_after {first : Stmt} (stays : first.leaves = false) (sites : List Site) :
    (sites.map (after first)).filterMap (exitFrom signature guard standing) =
      sites.filterMap (exitFrom signature guard (standing.after first)) := by
  rw [List.filterMap_map]
  congr 1
  funext site
  show (site.after first).exitFrom signature guard standing = _
  rw [exitFrom_after, stays]
  rfl

theorem filterMap_exitFrom_after_leaving {first : Stmt} (leaves : first.leaves = true) (sites : List Site) :
    (sites.map (after first)).filterMap (exitFrom signature guard standing) = [] := by
  rw [List.filterMap_map, List.filterMap_eq_nil_iff]
  intro site _
  show (site.after first).exitFrom signature guard standing = none
  rw [exitFrom_after, leaves]
  rfl

end Site

/-! ## Single statements -/

namespace Walk

variable {walk : Walk} {standing : Standing} {guard : Option Guard} {signature : Signature}

/-- The walk is where `standing` is in force, in a branch with `guard`. -/
structure Stands (walk : Walk) (standing : Standing) (guard : Option Guard) : Prop where
  reads : walk.scope.Reads standing.names guard
  defaults : walk.defaults = standing.defaults

theorem updateOf_eq {scope : Scope} {names : Environment} (reads : scope.Reads names guard) (kind : Kind) (expr : Expr) :
    updateOf scope kind expr = names.update? kind expr := by
  fun_cases Environment.update? names kind expr with
  | case1 span type elements builds | case3 outer span type elements builds =>
    have isTrue : (kind.hasContext && !kind.hasStateUpdate) = true := by simpa using builds
    simp only [updateOf, isTrue]
  | case2 span type elements builds | case4 outer span type elements builds =>
    have isFalse : (kind.hasContext && !kind.hasStateUpdate) = false := by simpa using builds
    simp only [updateOf, isFalse]
    rfl
  | case5 expr noComposite noAddress =>
    rw [← reads.resolve]
    unfold updateOf
    split <;> dsimp only
    next span operand =>
      split
      next type elements _ => exact (noAddress _ _ _ _ rfl).elim
      next => rfl
    next =>
      split
      next type elements _ => exact (noComposite _ _ _ rfl).elim
      next => rfl

theorem returned_eq {scope : Scope} {names : Environment} (reads : scope.Reads names guard) (results : List Expr) :
    returned scope signature results = names.returned? signature results := by
  have same : updateOf scope signature.kind = names.update? signature.kind :=
    funext fun expr => updateOf_eq reads signature.kind expr
  unfold returned Environment.returned?
  rw [same]

/-- A call may set a default, and notes no exit. -/
theorem Stands.call (stands : walk.Stands standing guard) (function : Expr) (args : List Expr) :
    (walk.callStatement function args).Stands (standing.call function args) guard ∧
      (walk.callStatement function args).exits = walk.exits := by
  have noted : ∀ usage : String, (walk.use usage).Stands standing guard := fun _ => ⟨stands.reads, stands.defaults⟩
  unfold callStatement Standing.call
  rw [stands.reads.resolve]
  cases standing.names.resolve function with
  | none => exact ⟨stands, rfl⟩
  | some chain =>
    rcases args with _ | ⟨arg, _ | ⟨second, more⟩⟩ <;> dsimp only <;> split
    case cons.nil.isTrue => exact ⟨⟨stands.reads, congrArg (·.told chain.name arg) stands.defaults⟩, rfl⟩
    case nil.isTrue | cons.cons.isTrue => exact ⟨stands, rfl⟩
    all_goals
      split
      · exact ⟨noted _, rfl⟩
      · exact ⟨stands, rfl⟩

/-! ## Lists and branches -/

/-- The exit that a list ends with, if it does. -/
def exitWith (guard : Option Guard) (defaults : Defaults) (update : Option Update) : List Exit :=
  (update.map fun update => ⟨update, guard, defaults⟩).toList

/-- What following a statement comes to: either the walk goes on after it and has noted the exits in it,
or the statement leaves its list, and nothing but the update it hands back is known. -/
inductive Follows (signature : Signature) (guard : Option Guard) (standing : Standing) (stmt : Stmt) (walk : Walk) :
    Flow × Walk → Prop
  | onward {after : Walk} (stays : stmt.leaves = false) (stands : after.Stands (standing.after stmt) guard)
      (exits : after.exits = walk.exits ++ stmt.returns.filterMap (Site.exitFrom signature guard standing)) :
      Follows signature guard standing stmt walk (.onward, after)
  | out {update : Option Update} (leaves : stmt.leaves = true)
      (exit : stmt.returns.filterMap (Site.exitFrom signature guard standing) =
        exitWith guard standing.defaults update) : Follows signature guard standing stmt walk (.out update, walk)

/-- What following a list of statements comes to: with the exit that the list ends with, the exits in it
have been noted. -/
structure FollowsAll (signature : Signature) (guard : Option Guard) (standing : Standing) (list : List Stmt)
    (walk : Walk) (ended : Option Update × Walk) : Prop where
  defaults : ended.2.defaults = (standing.afterAll list).defaults
  exits : ended.2.exits ++ exitWith guard ended.2.defaults ended.1 =
    walk.exits ++ (returnsIn list).filterMap (Site.exitFrom signature guard standing)

theorem FollowsAll.nil (stands : walk.Stands standing guard) :
    FollowsAll signature guard standing [] walk (none, walk) := by
  refine ⟨?_, ?_⟩
  · rw [stands.defaults, Standing.afterAll]
  · simp [exitWith, returnsIn]

/-- A list is followed by following its first statement and then, if that does not leave it, the rest. -/
theorem FollowsAll.cons {first : Stmt} {rest : List Stmt} {run : Walk → Option Update × Walk} {result : Flow × Walk}
    (stands : walk.Stands standing guard) (head : Follows signature guard standing first walk result)
    (tail : ∀ after : Walk, after.Stands (standing.after first) guard →
      FollowsAll signature guard (standing.after first) rest after (run after)) :
    FollowsAll signature guard standing (first :: rest) walk (goOn run result) := by
  cases head with
  | @onward after stays standsAfter exits =>
    obtain ⟨defaults, exitsAfter⟩ := tail after standsAfter
    show FollowsAll signature guard standing (first :: rest) walk (run after)
    refine ⟨?_, ?_⟩
    · rw [defaults, Standing.afterAll, stays]
      rfl
    · rw [exitsAfter, exits, returnsIn, List.filterMap_append, Site.filterMap_exitFrom_after _ _ _ stays,
        List.append_assoc]
  | @out update leaves exit =>
    show FollowsAll signature guard standing (first :: rest) walk (update, walk)
    refine ⟨?_, ?_⟩
    · rw [stands.defaults, Standing.afterAll, leaves]
      rfl
    · rw [returnsIn, List.filterMap_append, exit, Site.filterMap_exitFrom_after_leaving _ _ _ leaves,
        List.append_nil, stands.defaults]

theorem exits_leave (walk : Walk) (scope : Scope) (update : Option Update) :
    (walk.leave scope update).exits = walk.exits ++ exitWith scope.guard? walk.defaults update := by
  cases update with
  | none => exact (List.append_nil _).symm
  | some update => rfl

theorem scope_leave (walk : Walk) (scope : Scope) (update : Option Update) : (walk.leave scope update).scope = scope := by
  cases update <;> rfl

theorem defaults_leave (walk : Walk) (scope : Scope) (update : Option Update) :
    (walk.leave scope update).defaults = walk.defaults := by
  cases update <;> rfl

/-- A list in a block: names are forgotten at its end, defaults are not. -/
theorem Stands.inBlock {list : List Stmt} {run : Walk → Option Update × Walk} (stands : walk.Stands standing guard)
    (follows : ∀ inner : Walk, inner.Stands standing guard → FollowsAll signature guard standing list inner (run inner)) :
    (walk.inBlock run).Stands { standing with defaults := (standing.afterAll list).defaults } guard ∧
      (walk.inBlock run).exits =
        walk.exits ++ (returnsIn list).filterMap (Site.exitFrom signature guard standing) := by
  obtain ⟨defaults, exits⟩ := follows { walk with scope := walk.scope.spawn none } ⟨stands.reads.spawn none, stands.defaults⟩
  unfold Walk.inBlock
  refine ⟨⟨?_, ?_⟩, ?_⟩
  · rw [scope_leave]
    exact stands.reads
  · rw [defaults_leave, defaults]
  · rw [exits_leave, stands.reads.guard?, exits]

/-- A list in a branch: neither names nor defaults stay beyond its end. -/
theorem Stands.inBranch {list : List Stmt} {run : Walk → Option Update × Walk} (inner : Option Guard)
    (stands : walk.Stands standing guard)
    (follows : ∀ within : Walk, within.Stands standing (inner.or guard) →
      FollowsAll signature (inner.or guard) standing list within (run within)) :
    (walk.inBranch inner run).Stands standing guard ∧
      (walk.inBranch inner run).exits =
        walk.exits ++ ((returnsIn list).map (.inside [] inner)).filterMap (Site.exitFrom signature guard standing) := by
  have branch : Stands { walk with scope := walk.scope.spawn inner } standing (inner.or guard) :=
    ⟨stands.reads.spawn inner, stands.defaults⟩
  obtain ⟨-, exits⟩ := branch.inBlock follows
  refine ⟨⟨stands.reads, stands.defaults⟩, ?_⟩
  rw [Site.filterMap_exitFrom_inside]
  exact exits

/-! ## Statements -/

theorem Follows.labeled {inner : Stmt} {result : Flow × Walk} (label : String)
    (follows : Follows signature guard standing inner walk result) :
    Follows signature guard standing (.labeled label inner) walk result := by
  cases follows with
  | onward stays stands exits => exact .onward stays stands exits
  | out leaves exit => exact .out leaves exit

/-- A statement without returns in it. -/
theorem Follows.simple {stmt : Stmt} {after : Walk} (stays : stmt.leaves = false) (noReturns : stmt.returns = [])
    (stands : after.Stands (standing.after stmt) guard) (same : after.exits = walk.exits) :
    Follows signature guard standing stmt walk (.onward, after) := by
  refine .onward stays stands ?_
  rw [same, noReturns, List.filterMap_nil, List.append_nil]

/-- A statement that is followed as the list inside it, in a scope of its own. -/
theorem Follows.block {stmt : Stmt} {list : List Stmt} {run : Walk → Option Update × Walk}
    (stays : stmt.leaves = false) (returns : stmt.returns = (returnsIn list).map (.inside [] none))
    (after : standing.after stmt = { standing with defaults := (standing.afterAll list).defaults })
    (stands : walk.Stands standing guard)
    (follows : ∀ inner : Walk, inner.Stands standing guard → FollowsAll signature guard standing list inner (run inner)) :
    Follows signature guard standing stmt walk (.onward, walk.inBlock run) := by
  obtain ⟨standsAfter, exits⟩ := stands.inBlock follows
  refine .onward stays ?_ ?_
  · rw [after]
    exact standsAfter
  · rw [returns, Site.filterMap_exitFrom_inside]
    exact exits

/-- The two branches of a statement, one after the other. -/
theorem Stands.inBranches {first second : List Stmt} {runFirst runSecond : Walk → Option Update × Walk}
    (firstGuard secondGuard : Option Guard) (stands : walk.Stands standing guard)
    (followsFirst : ∀ within : Walk, within.Stands standing (firstGuard.or guard) →
      FollowsAll signature (firstGuard.or guard) standing first within (runFirst within))
    (followsSecond : ∀ within : Walk, within.Stands standing (secondGuard.or guard) →
      FollowsAll signature (secondGuard.or guard) standing second within (runSecond within)) :
    ((walk.inBranch firstGuard runFirst).inBranch secondGuard runSecond).Stands standing guard ∧
      ((walk.inBranch firstGuard runFirst).inBranch secondGuard runSecond).exits = walk.exits ++
        ((returnsIn first).map (Site.inside [] firstGuard) ++
          (returnsIn second).map (Site.inside [] secondGuard)).filterMap
          (Site.exitFrom signature guard standing) := by
  obtain ⟨standsFirst, exitsFirst⟩ := stands.inBranch firstGuard followsFirst
  obtain ⟨standsSecond, exitsSecond⟩ := standsFirst.inBranch secondGuard followsSecond
  refine ⟨standsSecond, ?_⟩
  rw [exitsSecond, exitsFirst, List.filterMap_append, List.append_assoc]

mutual

/-- Following a statement, by the kinds of statements. -/
theorem stmt_follows (signature : Signature) : ∀ (stmt : Stmt) {walk : Walk} {standing : Standing} {guard : Option Guard},
    walk.Stands standing guard → Follows signature guard standing stmt walk (Walk.stmt signature stmt walk)
  | .labeled label inner, walk, standing, guard, stands => by
    rw [Walk.stmt]
    exact (stmt_follows signature inner stands).labeled label
  | .constDecl specs, walk, standing, guard, stands => by
    rw [Walk.stmt]
    exact .simple rfl rfl ⟨stands.reads.clear _, stands.defaults⟩ rfl
  | .typeDecl names, walk, standing, guard, stands => by
    rw [Walk.stmt]
    exact .simple rfl rfl ⟨stands.reads.clear _, stands.defaults⟩ rfl
  | .varDecl specs, walk, standing, guard, stands => by
    rw [Walk.stmt]
    exact .simple rfl rfl ⟨stands.reads.declare _, stands.defaults⟩ rfl
  | .assign targets values, walk, standing, guard, stands => by
    rw [Walk.stmt]
    exact .simple rfl rfl ⟨stands.reads.assign _ _, stands.defaults⟩ rfl
  | .expr value, walk, standing, guard, stands => by
    by_cases isCall : ∃ span function args, value = .call span function args
    · obtain ⟨span, function, args, rfl⟩ := isCall
      rw [Walk.stmt]
      obtain ⟨standsAfter, same⟩ := stands.call function args
      exact .simple rfl rfl standsAfter same
    · have unmoved : standing.after (.expr value) = standing := by
        rw [Standing.after]
        all_goals simp_all
      rw [Walk.stmt]
      · refine .simple rfl rfl ?_ rfl
        rwa [unmoved]
      · simp_all
  | .ret results, walk, standing, guard, stands => by
    rw [Walk.stmt]
    refine .out rfl ?_
    rw [returned_eq stands.reads, Stmt.returns, List.filterMap_cons, Site.exitFrom_here]
    cases standing.names.returned? signature results <;> rfl
  | .branch kind, walk, standing, guard, stands => by
    rw [Walk.stmt]
    exact .out rfl rfl
  | .block body, _, _, _, stands | .switch body, _, _, _, stands | .typeSwitch body, _, _, _, stands
  | .select body, _, _, _, stands | .forLoop body, _, _, _, stands | .range body, _, _, _, stands => by
    rw [Walk.stmt]
    exact .block rfl rfl rfl stands fun inner standsInner => stmts_follow signature body standsInner
  | .commClause none body, walk, standing, guard, stands => by
    rw [Walk.stmt]
    exact .block rfl rfl rfl stands fun inner standsInner => stmts_follow signature body standsInner
  | .commClause (some comm) body, walk, standing, guard, stands => by
    rw [Walk.stmt]
    have returns : (Stmt.commClause (some comm) body).returns = (returnsIn (comm :: body)).map (.inside [] none) := rfl
    refine .block rfl returns ?_ stands fun inner standsInner => ?_
    · rw [Standing.after, Standing.afterAll]
      split <;> rfl
    · exact .cons standsInner (stmt_follows signature comm standsInner) fun after standsAfter =>
        stmts_follow signature body standsAfter
  | .ifElse cond body none, walk, standing, guard, stands => by
    rw [Walk.stmt]
    obtain ⟨standsAfter, exits⟩ := stands.inBranches (some ⟨[cond], false⟩) (some ⟨[cond], true⟩)
      (fun within standsWithin => stmts_follow signature body standsWithin) fun within standsWithin => .nil standsWithin
    refine .onward rfl standsAfter (exits.trans ?_)
    rw [returnsIn, List.map_nil, List.append_nil, Stmt.returns]
  | .ifElse cond body (some alternative), walk, standing, guard, stands => by
    rw [Walk.stmt]
    obtain ⟨standsAfter, exits⟩ := stands.inBranches (some ⟨[cond], false⟩) (some ⟨[cond], true⟩)
      (fun within standsWithin => stmts_follow signature body standsWithin) fun within standsWithin =>
        .cons standsWithin (stmt_follows signature alternative standsWithin) fun after standsAfter => .nil standsAfter
    refine .onward rfl standsAfter (exits.trans ?_)
    rw [returnsIn, returnsIn, List.map_nil, List.append_nil, Stmt.returns]
  | .caseClause alternatives body, walk, standing, guard, stands => by
    rw [Walk.stmt]
    obtain ⟨standsAfter, exits⟩ := stands.inBranch (if alternatives.isEmpty then none else some ⟨alternatives, false⟩)
      fun within standsWithin => stmts_follow signature body standsWithin
    exact .onward rfl standsAfter exits
  | .defer _, _, _, _, stands | .go _, _, _, _, stands | .send _ _, _, _, _, stands | .incDec _, _, _, _, stands
  | .empty, _, _, _, stands => by
    rw [Walk.stmt]
    exact .simple rfl rfl stands rfl

/-- Following a list of statements, one after the other. -/
theorem stmts_follow (signature : Signature) : ∀ (list : List Stmt) {walk : Walk} {standing : Standing}
    {guard : Option Guard}, walk.Stands standing guard →
    FollowsAll signature guard standing list walk (Walk.stmts signature list walk)
  | [], walk, standing, guard, stands => by
    rw [Walk.stmts]
    exact .nil stands
  | first :: rest, walk, standing, guard, stands => by
    rw [Walk.stmts]
    exact .cons stands (stmt_follows signature first stands) fun after standsAfter =>
      stmts_follow signature rest standsAfter

end

end Walk

/-! ## Bodies -/

/-- The exits of a body: its returns in the order in which they are written, as far as they are reached
and what they hand back can be traced. -/
def exitsOf (signature : Signature) (body : List Stmt) : List Exit :=
  (returnsIn body).filterMap (Site.exitFrom signature none (.start signature.contextArg))

/-- **Following a body notes its exits.** -/
theorem walk_exits (signature : Signature) (body : List Stmt) : (walk signature body).exits = exitsOf signature body := by
  have start : Walk.Stands { scope := .root signature.contextArg } (.start signature.contextArg) none :=
    ⟨.root signature.contextArg, rfl⟩
  exact (start.inBlock fun inner stands => Walk.stmts_follow signature body stands).2

/-- A step records the exits of its body: no return counts twice, those that are followed are the reached
ones, each with its own guard and defaults, and the moves and inner steps are those of the exits in order. -/
theorem trace_records_exits (framework : String) (signature : Signature) (body : List Stmt) :
    (returnsIn body).Nodup ∧ (walk signature body).exits = exitsOf signature body ∧
      trace framework signature body =
        let tracing : Tracing := ⟨framework, signature, outline framework (stmtsSize body)⟩
        { signature
          moves := (tracing.moves (exitsOf signature body)).1
          subSteps := (tracing.moves (exitsOf signature body)).2
          usages := (walk signature body).usages } := by
  refine ⟨nodup_returnsIn body, walk_exits signature body, ?_⟩
  rw [← walk_exits]
  rfl

end StepChart
