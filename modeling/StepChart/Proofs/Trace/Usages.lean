import StepChart.Proofs.Basic
import StepChart.Proofs.Naming.Duplicates
import StepChart.Proofs.Trace.ReachedReturns

/-!
# The usages of a step

A step notes the calls of its context and of adapters. `Reached` says where a body is gone through, list by list and
with the names that are in force, and `Environment.UsedAs` what a call is noted as. Following a body collects neither
more nor less than that (`stmts_collect`), so the usages of a step are those of the calls that are reached
(`usages_of_reached_calls`).
-/

namespace StepChart

open Syntax Text

/-! ## Statements that are reached -/

/-- The lists of statements right inside a statement. The statement behind a label, and the one after `else`, are lists
of their own; what a clause of a `select` waits for comes before its body. -/
def Syntax.Stmt.lists : Stmt → List (List Stmt)
  | .labeled _ inner => [[inner]]
  | .block body | .switch body | .typeSwitch body | .select body | .forLoop body | .range body
  | .caseClause _ body => [body]
  | .ifElse _ body alternative => [body, alternative.toList]
  | .commClause comm body => [comm.toList ++ body]
  | _ => []

/-- `Reached standing list there stmt`: going through a list at whose beginning `standing` is in force leads to the
statement, and `there` is in force before it. Nothing is reached after a statement that leaves its list. -/
inductive Reached : Standing → List Stmt → Standing → Stmt → Prop
  | here {standing : Standing} {first : Stmt} {rest : List Stmt} : Reached standing (first :: rest) standing first
  | inside {standing there : Standing} {first stmt : Stmt} {list rest : List Stmt} (isList : list ∈ first.lists)
      (reached : Reached standing list there stmt) : Reached standing (first :: rest) there stmt
  | later {standing there : Standing} {first stmt : Stmt} {rest : List Stmt} (stays : first.leaves = false)
      (reached : Reached (standing.after first) rest there stmt) : Reached standing (first :: rest) there stmt

/-! ## What a call is noted as -/

namespace Environment

/-- The chain starts or sends what `prepared` prepares with the context as an argument. No nearer name prepares
anything, and the names in between are not empty. -/
structure Prepares (names : Environment) (chain prepared : Chain) : Prop where
  uncalled : chain.args = []
  starts : chain.name = "Start" ∨ chain.name = "Send"
  nearest : ∃ near far, chain.ancestors = near ++ prepared :: far ∧
    ∀ between ∈ near, between.name ≠ "" ∧ startsWith "Prepare" between.name = false
  prepare : startsWith "Prepare" prepared.name = true
  context : ∃ arg ∈ prepared.args, names.resolve arg = some (.context none)

/-- `names.UsedAs chain args usage`: the call of a chain is noted as `usage` where `names` are in force. A call of the
context itself has one argument and is noted by its name, and the call of an adapter by both its names. -/
inductive UsedAs (names : Environment) (chain : Chain) (args : List Expr) : String → Prop
  | direct (direct : chain.parent? = some (.context none)) (single : args.length = 1) :
      UsedAs names chain args chain.name
  | adapter {prepared : Chain} (indirect : chain.parent? ≠ some (.context none))
      (prepares : names.Prepares chain prepared) :
      UsedAs names chain args ("adapter:" ++ prepared.name ++ "." ++ chain.name)

/-- A call is noted as `usage` where `names` are in force. -/
def Notes (names : Environment) (function : Expr) (args : List Expr) (usage : String) : Prop :=
  ∃ chain, names.resolve function = some chain ∧ names.UsedAs chain args usage

end Environment

/-- A call that is reached in a list is noted as `usage`. -/
def Noted (standing : Standing) (list : List Stmt) (usage : String) : Prop :=
  ∃ there span function args, Reached standing list there (.expr (.call span function args)) ∧
    there.names.Notes function args usage

/-! ## Calls -/

theorem Chain.isContextItself_iff {chain : Chain} : chain.isContextItself = true ↔ chain = .context none := by
  unfold isContextItself
  split <;> simp_all

theorem Chain.isDirect_iff {chain : Chain} : chain.isDirect = true ↔ chain.parent? = some (.context none) := by
  cases chain <;> simp [isDirect, parent?, isContextItself_iff]

theorem hasName_of_prepare {chain : Chain} (prepare : startsWith "Prepare" chain.name = true) :
    chain.hasName = true := by
  unfold Chain.hasName
  cases empty : chain.name.isEmpty with
  | false => rfl
  | true =>
    rw [String.isEmpty_iff] at empty
    rw [empty] at prepare
    exact absurd prepare (by decide)

section Calls

variable {walk : Walk} {standing : Standing} {guard : Option Guard}

theorem any_isContextItself {scope : Scope} {names : Environment} (reads : scope.Reads names guard) (args : List Expr) :
    (args.any fun arg => (scope.resolve arg).any Chain.isContextItself) = true ↔
      ∃ arg ∈ args, names.resolve arg = some (.context none) := by
  simp only [List.any_eq_true, Option.any_eq_true, Chain.isContextItself_iff, reads.resolve, exists_eq_right]

/-- **The usage of an adapter**: the nearest name that prepares a call, and the name that starts it. -/
theorem adapterUsage?_eq_some_iff {scope : Scope} {names : Environment} (reads : scope.Reads names guard)
    (chain : Chain) (usage : String) : Walk.adapterUsage? scope chain = some usage ↔
      ∃ prepared, names.Prepares chain prepared ∧ usage = "adapter:" ++ prepared.name ++ "." ++ chain.name := by
  unfold Walk.adapterUsage?
  constructor
  · intro noted
    split at noted
    · next starts =>
      obtain ⟨prepared, search, noted⟩ := Option.bind_eq_some_iff.1 noted
      obtain ⟨near, far, ancestors, before, -, prepare⟩ := find?_takeWhile_eq_some_iff.1 search
      split at noted
      · next context =>
        refine ⟨prepared, ⟨?_, ?_, ⟨near, far, ancestors, fun between member => ?_⟩, prepare, ?_⟩, ?_⟩
        · simpa using (Bool.and_eq_true_iff.1 starts).1
        · simpa using (Bool.and_eq_true_iff.1 starts).2
        · simpa [Chain.hasName] using before between member
        · exact (any_isContextItself reads _).1 context
        · exact (Option.some.inj noted).symm
      · cases noted
    · cases noted
  · rintro ⟨prepared, ⟨uncalled, starts, ⟨near, far, ancestors, before⟩, prepare, context⟩, rfl⟩
    have search : (chain.ancestors.takeWhile Chain.hasName).find? (fun ancestor => startsWith "Prepare" ancestor.name) =
        some prepared := by
      refine find?_takeWhile_eq_some_iff.2
        ⟨near, far, ancestors, fun between member => ?_, hasName_of_prepare prepare, prepare⟩
      simpa [Chain.hasName] using before between member
    rw [if_pos (by simpa [uncalled] using starts)]
    dsimp only
    rw [search, Option.bind_some, if_pos ((any_isContextItself reads _).2 context)]

theorem usedAs_iff_of_direct {names : Environment} {chain : Chain} (direct : chain.isDirect = true) {args : List Expr}
    {usage : String} : names.UsedAs chain args usage ↔ args.length = 1 ∧ usage = chain.name := by
  rw [Chain.isDirect_iff] at direct
  constructor
  · rintro (⟨-, single⟩ | ⟨indirect, -⟩)
    · exact ⟨single, rfl⟩
    · exact absurd direct indirect
  · rintro ⟨single, rfl⟩
    exact .direct direct single

theorem usedAs_iff_of_indirect {names : Environment} {chain : Chain} (indirect : ¬ chain.isDirect = true)
    {args : List Expr} {usage : String} : names.UsedAs chain args usage ↔
      ∃ prepared, names.Prepares chain prepared ∧ usage = "adapter:" ++ prepared.name ++ "." ++ chain.name := by
  rw [Chain.isDirect_iff] at indirect
  constructor
  · rintro (⟨direct, -⟩ | ⟨-, prepares⟩)
    · exact absurd direct indirect
    · exact ⟨_, prepares, rfl⟩
  · rintro ⟨prepared, prepares, rfl⟩
    exact .adapter indirect prepares

/-- A call notes what it is noted as, and keeps what was noted before. -/
theorem mem_usages_callStatement (stands : walk.Stands standing guard) (function : Expr) (args : List Expr)
    (usage : String) : usage ∈ (walk.callStatement function args).usages ↔
      usage ∈ walk.usages ∨ standing.names.Notes function args usage := by
  unfold Walk.callStatement
  rw [stands.reads.resolve]
  unfold Environment.Notes
  cases standing.names.resolve function with
  | none => simp only [reduceCtorEq, false_and, exists_false, or_false]
  | some chain =>
    simp only [Option.some.injEq, exists_eq_left']
    split
    · next direct =>
      rw [usedAs_iff_of_direct direct]
      split
      · simp [Walk.use, or_comm]
      · next several =>
        have notSingle : args.length ≠ 1 := fun single => by
          obtain ⟨arg, rfl⟩ := List.length_eq_one_iff.1 single
          exact several arg rfl
        simp only [notSingle, false_and, or_false]
    · next indirect =>
      rw [usedAs_iff_of_indirect indirect, ← adapterUsage?_eq_some_iff stands.reads]
      split
      · next noted =>
        rw [noted]
        simp [Walk.use, or_comm, eq_comm]
      · next nothing => simp only [nothing, reduceCtorEq, or_false]

end Calls

/-! ## Following a body -/

variable {standing : Standing} {usage : String}

theorem not_noted_nil : ¬ Noted standing [] usage := by
  rintro ⟨there, span, function, args, reached, -⟩
  cases reached

/-- What is noted in a list is noted in its first statement or, if that does not leave the list, in the rest. -/
theorem noted_cons {first : Stmt} {rest : List Stmt} : Noted standing (first :: rest) usage ↔
    Noted standing [first] usage ∨ first.leaves = false ∧ Noted (standing.after first) rest usage := by
  constructor
  · rintro ⟨there, span, function, args, reached, notes⟩
    cases reached with
    | here => exact .inl ⟨_, span, function, args, .here, notes⟩
    | inside isList reached => exact .inl ⟨_, span, function, args, .inside isList reached, notes⟩
    | later stays reached => exact .inr ⟨stays, _, span, function, args, reached, notes⟩
  · rintro (⟨there, span, function, args, reached, notes⟩ | ⟨stays, there, span, function, args, reached, notes⟩)
    · cases reached with
      | here => exact ⟨_, span, function, args, .here, notes⟩
      | inside isList reached => exact ⟨_, span, function, args, .inside isList reached, notes⟩
      | later stays reached => cases reached
    · exact ⟨there, span, function, args, .later stays reached, notes⟩

/-- What is noted in a statement other than a call is noted in the lists right inside it. -/
theorem noted_singleton {stmt : Stmt} (noCall : ∀ span function args, stmt ≠ .expr (.call span function args)) :
    Noted standing [stmt] usage ↔ ∃ list ∈ stmt.lists, Noted standing list usage := by
  constructor
  · rintro ⟨there, span, function, args, reached, notes⟩
    cases reached with
    | here => exact absurd rfl (noCall span function args)
    | inside isList reached => exact ⟨_, isList, there, span, function, args, reached, notes⟩
    | later stays reached => cases reached
  · rintro ⟨list, isList, there, span, function, args, reached, notes⟩
    exact ⟨there, span, function, args, .inside isList reached, notes⟩

theorem noted_call {span : Span} {function : Expr} {args : List Expr} :
    Noted standing [.expr (.call span function args)] usage ↔ standing.names.Notes function args usage := by
  constructor
  · rintro ⟨there, otherSpan, otherFunction, otherArgs, reached, notes⟩
    cases reached with
    | here => exact notes
    | inside isList reached => cases isList
    | later stays reached => cases reached
  · exact fun notes => ⟨standing, span, function, args, .here, notes⟩

namespace Walk

/-- Where `standing` is in force, `run` notes what is noted in the list and nothing else. -/
structure Collects {α : Type} (standing : Standing) (list : List Stmt) (run : Walk → α × Walk) : Prop where
  mem_usages : ∀ {walk : Walk} {guard : Option Guard}, walk.Stands standing guard → ∀ usage,
    (usage ∈ (run walk).2.usages ↔ usage ∈ walk.usages ∨ Noted standing list usage)

variable {signature : Signature} {list : List Stmt} {run : Walk → Option Update × Walk}

theorem Collects.nil : Collects standing [] fun walk => ((none : Option Update), walk) := by
  refine ⟨fun stands usage => ?_⟩
  simp only [not_noted_nil, or_false]

/-- A list collects what its first statement does and then, if that does not leave the list, what the rest does. -/
theorem Collects.cons {first : Stmt} {rest : List Stmt} (head : Collects standing [first] (Walk.stmt signature first))
    (tail : Collects (standing.after first) rest run) :
    Collects standing (first :: rest) fun walk => goOn run (Walk.stmt signature first walk) := by
  refine ⟨fun {walk guard} stands usage => ?_⟩
  have atFirst := head.mem_usages stands usage
  have follows := stmt_follows signature first stands
  rw [noted_cons]
  generalize Walk.stmt signature first walk = result at atFirst follows ⊢
  cases follows with
  | @onward after stays standsAfter exits =>
    show usage ∈ (run after).2.usages ↔ _
    rw [tail.mem_usages standsAfter, atFirst, stays]
    simp only [true_and, or_assoc]
  | @out update leaves exit =>
    show usage ∈ walk.usages ↔ _
    rw [leaves]
    simpa using atFirst

theorem usages_leave (walk : Walk) (scope : Scope) (update : Option Update) :
    (walk.leave scope update).usages = walk.usages := by
  cases update <;> rfl

theorem Collects.inBlock (collects : Collects standing list run) :
    Collects standing list fun walk => (Flow.onward, walk.inBlock run) := by
  refine ⟨fun {walk guard} stands usage => ?_⟩
  have inside : Stands { walk with scope := walk.scope.spawn none } standing guard :=
    ⟨stands.reads.spawn none, stands.defaults⟩
  dsimp only
  rw [Walk.inBlock, usages_leave]
  exact collects.mem_usages inside usage

theorem Collects.inBranch (inner : Option Guard) (collects : Collects standing list run) :
    Collects standing list fun walk => (Flow.onward, walk.inBranch inner run) := by
  refine ⟨fun {walk guard} stands usage => ?_⟩
  have inside : Stands { walk with scope := walk.scope.spawn inner } standing (inner.or guard) :=
    ⟨stands.reads.spawn inner, stands.defaults⟩
  exact collects.inBlock.mem_usages inside usage

/-- A statement that is gone through as the list right inside it. -/
theorem Collects.single {α : Type} {stmt : Stmt} {run : Walk → α × Walk} (lists : stmt.lists = [list])
    (noCall : ∀ span function args, stmt ≠ .expr (.call span function args)) (collects : Collects standing list run) :
    Collects standing [stmt] run := by
  refine ⟨fun stands usage => ?_⟩
  rw [collects.mem_usages stands, noted_singleton noCall, lists]
  simp only [List.mem_singleton, exists_eq_left]

/-- A statement with nothing inside. -/
theorem Collects.simple {stmt : Stmt} {run : Walk → Flow × Walk} (lists : stmt.lists = [])
    (noCall : ∀ span function args, stmt ≠ .expr (.call span function args))
    (same : ∀ walk, (run walk).2.usages = walk.usages) : Collects standing [stmt] run := by
  refine ⟨fun stands usage => ?_⟩
  rw [same, noted_singleton noCall, lists]
  simp only [List.not_mem_nil, false_and, exists_false, or_false]

/-- The two branches of a statement, one after the other. -/
theorem Collects.branches {cond : Expr} {body : List Stmt} {alternative : Option Stmt}
    {other : Walk → Option Update × Walk} (first second : Option Guard) (collects : Collects standing body run)
    (collectsOther : Collects standing alternative.toList other) :
    Collects standing [.ifElse cond body alternative] fun walk =>
      (Flow.onward, (walk.inBranch first run).inBranch second other) := by
  refine ⟨fun {walk guard} stands usage => ?_⟩
  have standsBetween : (walk.inBranch first run).Stands standing guard := ⟨stands.reads, stands.defaults⟩
  have inBody := (collects.inBranch first).mem_usages stands usage
  have inAlternative := (collectsOther.inBranch second).mem_usages standsBetween usage
  rw [noted_singleton (by simp), inAlternative, inBody, or_assoc]
  simp only [Stmt.lists, List.mem_cons, List.not_mem_nil, or_false, exists_eq_or_imp, exists_eq_left]

theorem Collects.call (span : Span) (function : Expr) (args : List Expr) :
    Collects standing [.expr (.call span function args)] fun walk =>
      (Flow.onward, walk.callStatement function args) := by
  refine ⟨fun stands usage => ?_⟩
  rw [noted_call]
  exact mem_usages_callStatement stands function args usage

theorem Collects.congr {α : Type} {run other : Walk → α × Walk} (same : ∀ walk, run walk = other walk)
    (collects : Collects standing list other) : Collects standing list run := by
  rwa [funext same]

mutual

/-- Going through a statement, by the kinds of statements. -/
theorem stmt_collects (signature : Signature) (standing : Standing) : ∀ stmt : Stmt,
    Collects standing [stmt] (Walk.stmt signature stmt)
  | .labeled _ inner =>
    .single rfl (by simp) (.congr (fun walk => by rw [Walk.stmt]) (stmt_collects signature standing inner))
  | .expr value => by
    by_cases isCall : ∃ span function args, value = .call span function args
    · obtain ⟨span, function, args, rfl⟩ := isCall
      exact .congr (fun walk => by rw [Walk.stmt]) (.call span function args)
    · refine .simple rfl (by simp_all) fun walk => ?_
      rw [Walk.stmt]
      simp_all
  | .block body | .switch body | .typeSwitch body | .select body | .forLoop body | .range body =>
    .single rfl (by simp) (.congr (fun walk => by rw [Walk.stmt]) (stmts_collect signature standing body).inBlock)
  | .commClause none body =>
    .single rfl (by simp) (.congr (fun walk => by rw [Walk.stmt]; rfl) (stmts_collect signature standing body).inBlock)
  | .commClause (some comm) body => by
    have inOrder : Collects standing (comm :: body) fun walk =>
        goOn (Walk.stmts signature body) (Walk.stmt signature comm walk) :=
      (stmt_collects signature standing comm).cons (stmts_collect signature (standing.after comm) body)
    exact .single rfl (by simp) (.congr (fun walk => by rw [Walk.stmt]; rfl) inOrder.inBlock)
  | .ifElse cond body none =>
    .congr (fun walk => by rw [Walk.stmt]; rfl) (.branches (some ⟨[cond], false⟩) (some ⟨[cond], true⟩)
      (stmts_collect signature standing body) .nil)
  | .ifElse cond body (some alternative) =>
    .congr (fun walk => by rw [Walk.stmt]; rfl) (.branches (some ⟨[cond], false⟩) (some ⟨[cond], true⟩)
      (stmts_collect signature standing body) ((stmt_collects signature standing alternative).cons .nil))
  | .caseClause alternatives body =>
    .single rfl (by simp) (.congr (fun walk => by rw [Walk.stmt])
      ((stmts_collect signature standing body).inBranch _))
  | .constDecl _ | .typeDecl _ | .varDecl _ | .assign _ _ | .ret _ | .branch _ | .defer _ | .go _ | .send _ _
  | .incDec _ | .empty => .simple rfl (by simp) fun walk => by rw [Walk.stmt]

/-- **A list notes the calls that are reached in it**, and no others. -/
theorem stmts_collect (signature : Signature) (standing : Standing) : ∀ list : List Stmt,
    Collects standing list (Walk.stmts signature list)
  | [] => .congr (fun walk => by rw [Walk.stmts]) .nil
  | first :: rest =>
    .congr (fun walk => by rw [Walk.stmts])
      ((stmt_collects signature standing first).cons (stmts_collect signature (standing.after first) rest))

end

end Walk

theorem mem_usages_walk (signature : Signature) (body : List Stmt) (usage : String) :
    usage ∈ (walk signature body).usages ↔ Noted (.start signature.contextArg) body usage := by
  have start : Walk.Stands { scope := .root signature.contextArg } (.start signature.contextArg) none :=
    ⟨.root signature.contextArg, rfl⟩
  have nothing : usage ∉ NameSet.empty := List.not_mem_nil
  have collected := (Walk.stmts_collect signature (.start signature.contextArg) body).inBlock.mem_usages start usage
  exact collected.trans (or_iff_right nothing)

/-- The usages of a step do not depend on how guards are worded. -/
theorem usages_toStep {wording : Wording} {outline : Outline} {step : Step}
    (worded : outline.toStep wording = .ok step) : step.usages = outline.usages := by
  unfold Outline.toStep at worded
  split at worded
  split at worded
  · cases worded
  · rw [addMoves_eq worded]

/-- **No usage is lost, and none is made up.** The usages of a step are what the calls that are reached in its body are
noted as, where they stand; and a step has the usages of its outline, however its guards are worded. -/
theorem usages_of_reached_calls (framework : String) (signature : Signature) (body : List Stmt) :
    (∀ usage, usage ∈ (trace framework signature body).usages ↔
      ∃ there span function args,
        Reached (.start signature.contextArg) body there (.expr (.call span function args)) ∧
          there.names.Notes function args usage) ∧
    ∀ (wording : Wording) (step : Step), (trace framework signature body).toStep wording = .ok step →
      step.usages = (trace framework signature body).usages :=
  ⟨mem_usages_walk signature body, fun _ _ worded => usages_toStep worded⟩

/-- The context is known by its other name where its own name stands for something else. -/
example :
    let name (text : String) : Expr := .ident default text
    let started (adapter : String) (arg : Expr) : Stmt :=
      .expr (.call default (.selector default (.call default (.selector default (name "a") adapter) [arg]) "Start") [])
    let body : List Stmt :=
      [.assign [name "c"] [name "ctx"],
        .block [.assign [name "ctx"] [name "a"], started "PrepareOne" (name "ctx"), started "PrepareTwo" (name "c")]]
    (trace "smachine" { contextArg := "ctx" } body).usages.toList = ["adapter:PrepareTwo.Start"] := by
  decide +kernel

end StepChart
