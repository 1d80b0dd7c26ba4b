import StepChart.Proofs.Trace.Depth
import StepChart.Proofs.Trace.ScopeChain

/-!
# Tracing comes to an end

A function literal is not traced where it is written but where a return uses it, out of an alias or a default that kept
it. Whatever is kept anywhere on the way through a body is an expression of that body (`Walk.Passes`, `Walk.Keeps`), the
exits are met on that way (`Walk.Meets`), and it begins with nothing kept. So a trace depends on the traces of literals in
its own body only (`Consults`), which are smaller, and the equation that describes tracing without a bound has exactly one
solution (`tracing_terminates`).
-/

namespace StepChart

open Syntax

/-! ## The way through a body -/

/-- The list inside a statement that is followed in a scope of its own, if there is one. A clause of a `select` begins with
what it waits for. -/
def Syntax.Stmt.block? : Stmt → Option (List Stmt)
  | .block body | .switch body | .typeSwitch body | .select body | .forLoop body | .range body => some body
  | .commClause comm body => some (comm.toList ++ body)
  | _ => none

namespace Walk

/-- The walk in a new scope. -/
def opened (walk : Walk) (guard : Option Guard) : Walk := { walk with scope := walk.scope.spawn guard }

/-- The walk at the beginning of a branch: its list of statements has a scope of its own. -/
def branched (walk : Walk) (guard : Option Guard) : Walk := (walk.opened guard).opened none

/-- The walk at the beginning of a body. -/
def start (signature : Signature) : Walk := Walk.opened { scope := .root signature.contextArg } none

/-- From `walk`, the statement enters the list inside it with another walk. -/
inductive Enters (signature : Signature) (walk : Walk) : Stmt → List Stmt → Walk → Prop
  | labeled {label : String} {inner : Stmt} {list : List Stmt} {first : Walk}
      (enters : Enters signature walk inner list first) : Enters signature walk (.labeled label inner) list first
  | block {stmt : Stmt} {list : List Stmt} (isBlock : stmt.block? = some list) :
      Enters signature walk stmt list (walk.opened none)
  | body {cond : Expr} {body : List Stmt} {alternative : Option Stmt} :
      Enters signature walk (.ifElse cond body alternative) body (walk.branched (some ⟨[cond], false⟩))
  | alternative {cond : Expr} {body : List Stmt} {alternative : Stmt} :
      Enters signature walk (.ifElse cond body (some alternative)) [alternative]
        ((walk.inBranch (some ⟨[cond], false⟩) (stmts signature body)).branched (some ⟨[cond], true⟩))
  | clause {alternatives : List Expr} {body : List Stmt} :
      Enters signature walk (.caseClause alternatives body) body
        (walk.branched (if alternatives.isEmpty then none else some ⟨alternatives, false⟩))

/-- Following a list of statements from one walk passes through another, where some statements are left to follow: at the
beginning of the list, after some of its statements, or inside one of them. -/
inductive Passes (signature : Signature) : List Stmt → Walk → List Stmt → Walk → Prop
  | here {list : List Stmt} {walk : Walk} : Passes signature list walk list walk
  | onward {first : Stmt} {rest left : List Stmt} {walk after there : Walk}
      (goesOn : Walk.stmt signature first walk = (.onward, after)) (later : Passes signature rest after left there) :
      Passes signature (first :: rest) walk left there
  | inside {first : Stmt} {rest list left : List Stmt} {walk inner there : Walk}
      (enters : Enters signature walk first list inner) (within : Passes signature list inner left there) :
      Passes signature (first :: rest) walk left there

/-! ## Where exits are met -/

/-- On the way through the list, a statement leaves with the update while the defaults are in force. -/
def Meets (signature : Signature) (list : List Stmt) (walk : Walk) (update : Update) (defaults : Defaults) : Prop :=
  ∃ first left there, Passes signature list walk (first :: left) there ∧
    Walk.stmt signature first there = (.out (some update), there) ∧ there.defaults = defaults

/-- The exits that were noted in a list, and the one that it ends with, were met on the way. -/
structure Notes (signature : Signature) (list : List Stmt) (walk : Walk) (ended : Option Update × Walk) : Prop where
  exits : ∀ exit ∈ ended.2.exits, exit ∈ walk.exits ∨ Meets signature list walk exit.update exit.defaults
  last : ∀ update ∈ ended.1, Meets signature list walk update ended.2.defaults

/-- The exits that were noted in a statement were met in a list inside it. A statement that leaves notes nothing. -/
structure NotesInside (signature : Signature) (stmt : Stmt) (walk : Walk) (result : Flow × Walk) : Prop where
  exits : ∀ exit ∈ result.2.exits, exit ∈ walk.exits ∨
    ∃ list inner, Enters signature walk stmt list inner ∧ Meets signature list inner exit.update exit.defaults
  out : ∀ update, result.1 = .out update → result.2 = walk

section Noted

variable {signature : Signature} {walk : Walk}

theorem Meets.inside {first : Stmt} {rest list : List Stmt} {inner : Walk} {update : Update} {defaults : Defaults}
    (enters : Enters signature walk first list inner) (meets : Meets signature list inner update defaults) :
    Meets signature (first :: rest) walk update defaults := by
  obtain ⟨last, left, there, passes, leaves⟩ := meets
  exact ⟨last, left, there, .inside enters passes, leaves⟩

theorem Meets.onward {first : Stmt} {rest : List Stmt} {after : Walk} {update : Update} {defaults : Defaults}
    (goesOn : Walk.stmt signature first walk = (.onward, after)) (meets : Meets signature rest after update defaults) :
    Meets signature (first :: rest) walk update defaults := by
  obtain ⟨last, left, there, passes, leaves⟩ := meets
  exact ⟨last, left, there, .onward goesOn passes, leaves⟩

theorem Notes.nil : Notes signature [] walk (none, walk) := ⟨fun _ => .inl, nofun⟩

theorem Notes.cons {first : Stmt} {rest : List Stmt} {run : Walk → Option Update × Walk}
    (head : NotesInside signature first walk (Walk.stmt signature first walk))
    (tail : ∀ after, Notes signature rest after (run after)) :
    Notes signature (first :: rest) walk (goOn run (Walk.stmt signature first walk)) := by
  obtain ⟨exits, out⟩ := head
  cases result : Walk.stmt signature first walk with
  | mk flow after =>
  rw [result] at exits out
  have inFirst : ∀ exit ∈ after.exits, exit ∈ walk.exits ∨
      Meets signature (first :: rest) walk exit.update exit.defaults := by
    intro exit member
    rcases exits exit member with old | ⟨list, inner, enters, meets⟩
    · exact .inl old
    · exact .inr (meets.inside enters)
  cases flow with
  | onward =>
    refine ⟨fun exit member => ?_, fun update ends => ((tail after).last update ends).onward result⟩
    rcases (tail after).exits exit member with old | meets
    · exact inFirst exit old
    · exact .inr (meets.onward result)
  | out update =>
    obtain rfl : after = walk := out update rfl
    refine ⟨fun _ => .inl, ?_⟩
    rintro update rfl
    exact ⟨first, rest, after, .here, result, rfl⟩

theorem Notes.inBlock (walk : Walk) {list : List Stmt} {run : Walk → Option Update × Walk}
    (notes : ∀ inner, Notes signature list inner (run inner)) :
    ∀ exit ∈ (walk.inBlock run).exits,
      exit ∈ walk.exits ∨ Meets signature list (walk.opened none) exit.update exit.defaults := by
  obtain ⟨exits, last⟩ := notes (walk.opened none)
  intro exit member
  rw [Walk.inBlock, exits_leave] at member
  rcases List.mem_append.1 member with noted | ends
  · exact exits exit noted
  · obtain ⟨update, isLast, rfl⟩ := Option.map_eq_some_iff.1 (Option.mem_toList.1 ends)
    exact .inr (last update isLast)

theorem Notes.inBranch (walk : Walk) (guard : Option Guard) {list : List Stmt} {run : Walk → Option Update × Walk}
    (notes : ∀ inner, Notes signature list inner (run inner)) :
    ∀ exit ∈ (walk.inBranch guard run).exits,
      exit ∈ walk.exits ∨ Meets signature list (walk.branched guard) exit.update exit.defaults :=
  Notes.inBlock (walk.opened guard) notes

theorem NotesInside.simple {stmt : Stmt} {after : Walk} (same : after.exits = walk.exits) :
    NotesInside signature stmt walk (.onward, after) :=
  ⟨fun _ member => .inl (same ▸ member), nofun⟩

theorem NotesInside.list {stmt : Stmt} {list : List Stmt} {inner after : Walk}
    (enters : Enters signature walk stmt list inner)
    (exits : ∀ exit ∈ after.exits, exit ∈ walk.exits ∨ Meets signature list inner exit.update exit.defaults) :
    NotesInside signature stmt walk (.onward, after) :=
  ⟨fun exit member => (exits exit member).imp_right fun meets => ⟨list, inner, enters, meets⟩, nofun⟩

end Noted

theorem exits_callStatement (walk : Walk) (function : Expr) (args : List Expr) :
    (walk.callStatement function args).exits = walk.exits := by
  unfold callStatement
  split
  · rfl
  · split
    · split <;> rfl
    · split <;> rfl

mutual

theorem stmt_notes (signature : Signature) : ∀ (stmt : Stmt) (walk : Walk),
    NotesInside signature stmt walk (Walk.stmt signature stmt walk)
  | .labeled _ inner, walk => by
    rw [Walk.stmt]
    obtain ⟨exits, out⟩ := stmt_notes signature inner walk
    refine ⟨fun exit member => (exits exit member).imp_right ?_, out⟩
    rintro ⟨list, first, enters, meets⟩
    exact ⟨list, first, .labeled enters, meets⟩
  | .expr value, walk => by
    by_cases isCall : ∃ span function args, value = .call span function args
    · obtain ⟨span, function, args, rfl⟩ := isCall
      rw [Walk.stmt]
      exact .simple (walk.exits_callStatement function args)
    · rw [Walk.stmt]
      · exact .simple rfl
      · simp_all
  | .ret _, walk | .branch _, walk => by
    rw [Walk.stmt]
    exact ⟨fun _ => .inl, fun _ _ => rfl⟩
  | .block body, walk | .switch body, walk | .typeSwitch body, walk | .select body, walk | .forLoop body, walk
  | .range body, walk | .commClause none body, walk => by
    rw [Walk.stmt]
    exact .list (.block rfl) (Notes.inBlock walk fun inner => stmts_note signature body inner)
  | .commClause (some comm) body, walk => by
    rw [Walk.stmt]
    have isBlock : (Stmt.commClause (some comm) body).block? = some (comm :: body) := rfl
    refine .list (.block isBlock) (Notes.inBlock walk fun inner => ?_)
    exact .cons (stmt_notes signature comm inner) fun after => stmts_note signature body after
  | .ifElse cond body none, walk => by
    rw [Walk.stmt]
    exact .list .body (Notes.inBranch walk _ fun inner => stmts_note signature body inner)
  | .ifElse cond body (some alternative), walk => by
    rw [Walk.stmt]
    have inBody := Notes.inBranch walk (some ⟨[cond], false⟩) fun inner => stmts_note signature body inner
    have inAlternative := Notes.inBranch (walk.inBranch (some ⟨[cond], false⟩) (stmts signature body))
      (some ⟨[cond], true⟩) fun inner => Notes.cons (stmt_notes signature alternative inner) fun _ => .nil
    refine ⟨fun exit member => ?_, nofun⟩
    rcases inAlternative exit member with earlier | meets
    · exact (inBody exit earlier).imp_right fun meets => ⟨body, _, .body, meets⟩
    · exact .inr ⟨[alternative], _, .alternative, meets⟩
  | .caseClause alternatives body, walk => by
    rw [Walk.stmt]
    exact .list .clause (Notes.inBranch walk _ fun inner => stmts_note signature body inner)
  | .constDecl _, _ | .typeDecl _, _ | .varDecl _, _ | .assign _ _, _ | .defer _, _ | .go _, _ | .send _ _, _
  | .incDec _, _ | .empty, _ => by
    rw [Walk.stmt]
    exact .simple rfl

theorem stmts_note (signature : Signature) : ∀ (list : List Stmt) (walk : Walk),
    Notes signature list walk (Walk.stmts signature list walk)
  | [], walk => by
    rw [Walk.stmts]
    exact .nil
  | first :: rest, walk => by
    rw [Walk.stmts]
    exact .cons (stmt_notes signature first walk) fun after => stmts_note signature rest after

end

/-- **The exits of a body are met on the way through it.** -/
theorem meets_of_mem_exits {signature : Signature} {body : List Stmt} {exit : Exit}
    (member : exit ∈ (walk signature body).exits) :
    Meets signature body (start signature) exit.update exit.defaults := by
  have noted := Notes.inBlock { scope := .root signature.contextArg } (stmts_note signature body) exit member
  exact noted.resolve_left List.not_mem_nil

end Walk

/-! ## What is kept on the way -/

/-- The arguments that a chain holds, those of all its calls. -/
def Chain.held : Chain → List Expr
  | .context call | .root _ call => call.getD []
  | .child parent _ call => parent.held ++ call.getD []

theorem Chain.holds_iff {test : Expr → Bool} (chain : Chain) :
    chain.Holds test ↔ ∀ expr ∈ chain.held, expr.all test = true := by
  induction chain with
  | context call => exact exprsAll_iff
  | root name call => exact exprsAll_iff
  | child parent name call ih => rw [Chain.Holds, Chain.held, List.forall_mem_append, ih, exprsAll_iff]

namespace Walk

/-- The expression is kept at this place: under a name, in the innermost scope or in one around it, or as a default. -/
def Keeps (walk : Walk) (expr : Expr) : Prop :=
  (∃ scope ∈ walk.scope :: walk.scope.around, ∃ name chain, scope.lookup name = some chain ∧ expr ∈ chain.held) ∨
    expr ∈ walk.defaults.kept

/-- The test holds in everything that a walk keeps, in the scopes around it too. -/
structure HoldsAround (test : Expr → Bool) (walk : Walk) : Prop where
  here : walk.Holds test
  around : ∀ scope ∈ walk.scope.around, Environment.Holds test scope.lookup

variable {test : Expr → Bool} {signature : Signature} {walk there : Walk}

theorem HoldsAround.all_of_keeps (holds : walk.HoldsAround test) {expr : Expr} (keeps : walk.Keeps expr) :
    expr.all test = true := by
  rcases keeps with ⟨scope, isScope, name, chain, stands, member⟩ | isDefault
  · have names : Environment.Holds test scope.lookup := by
      rcases List.mem_cons.1 isScope with rfl | outer
      · exact holds.here.names
      · exact holds.around scope outer
    exact chain.holds_iff.1 (names name chain stands) expr member
  · exact exprsAll_iff.1 holds.here.defaults expr isDefault

theorem HoldsAround.opened (holds : walk.HoldsAround test) (guard : Option Guard) : (walk.opened guard).HoldsAround test :=
  ⟨holds.here.withScope holds.here.names, List.forall_mem_cons.2 ⟨holds.here.names, holds.around⟩⟩

theorem HoldsAround.branched (holds : walk.HoldsAround test) (guard : Option Guard) :
    (walk.branched guard).HoldsAround test :=
  (holds.opened guard).opened none

/-- A statement changes no scope around the innermost one. -/
theorem around_stmt (signature : Signature) (stmt : Stmt) (walk : Walk) :
    (Walk.stmt signature stmt walk).2.scope.around = walk.scope.around := by
  rw [(stmt_acts signature stmt walk).scope]
  exact Scope.around_run (balanced_acts stmt 0)

theorem HoldsAround.stmt (holds : walk.HoldsAround test) {stmt : Stmt} (every : stmt.all test = true) :
    (Walk.stmt signature stmt walk).2.HoldsAround test := by
  refine ⟨(stmt_kept signature stmt every holds.here).1, ?_⟩
  rw [around_stmt]
  exact holds.around

theorem all_block : ∀ {stmt : Stmt} {list : List Stmt}, stmt.block? = some list → stmt.all test = true →
    stmtsAll test list = true
  | .block _, _, rfl, every | .switch _, _, rfl, every | .typeSwitch _, _, rfl, every | .select _, _, rfl, every
  | .forLoop _, _, rfl, every | .range _, _, rfl, every | .commClause (some _) _, _, rfl, every => every
  | .commClause none _, _, rfl, every => (Bool.and_eq_true_iff.1 every).2

theorem Enters.holds {stmt : Stmt} {list : List Stmt} {inner : Walk} (enters : Enters signature walk stmt list inner)
    (every : stmt.all test = true) (holds : walk.HoldsAround test) :
    stmtsAll test list = true ∧ inner.HoldsAround test := by
  induction enters with
  | labeled enters ih => exact ih every
  | block isBlock => exact ⟨all_block isBlock every, holds.opened none⟩
  | body =>
    obtain ⟨rest, -⟩ := Bool.and_eq_true_iff.1 every
    exact ⟨(Bool.and_eq_true_iff.1 rest).2, holds.branched _⟩
  | @alternative cond body alternative =>
    obtain ⟨rest, inAlternative⟩ := Bool.and_eq_true_iff.1 every
    have inBody := (Bool.and_eq_true_iff.1 rest).2
    have afterBody : HoldsAround test (walk.inBranch (some ⟨[cond], false⟩) (stmts signature body)) :=
      ⟨holds.here.inBranch _ fun inner holdsInner => stmts_kept signature body inBody holdsInner, holds.around⟩
    exact ⟨Bool.and_eq_true_iff.2 ⟨inAlternative, rfl⟩, afterBody.branched _⟩
  | clause => exact ⟨(Bool.and_eq_true_iff.1 every).2, holds.branched _⟩

/-- **A test that holds everywhere in a list holds of all that is kept on the way through it.** -/
theorem Passes.holds {list left : List Stmt} (passes : Passes signature list walk left there) (every : stmtsAll test list = true)
    (holds : walk.HoldsAround test) : there.HoldsAround test := by
  induction passes with
  | here => exact holds
  | @onward first rest left walk after there goesOn later ih =>
    obtain ⟨inFirst, inRest⟩ := Bool.and_eq_true_iff.1 every
    have holdsAfter : (Walk.stmt signature first walk).2.HoldsAround test := holds.stmt inFirst
    rw [goesOn] at holdsAfter
    exact ih inRest holdsAfter
  | inside enters within ih =>
    obtain ⟨inList, holdsInner⟩ := enters.holds (Bool.and_eq_true_iff.1 every).1 holds
    exact ih inList holdsInner

theorem holdsAround_start (signature : Signature) : (start signature).HoldsAround test := by
  have names : Environment.Holds test (Scope.root signature.contextArg).lookup := by
    rw [(Scope.Reads.root signature.contextArg).lookup]
    exact .start signature.contextArg
  have root : Walk.HoldsAround test { scope := .root signature.contextArg } :=
    ⟨⟨names, rfl, List.forall_mem_nil _⟩, List.forall_mem_nil _⟩
  exact root.opened none

/-- Nothing is kept at the beginning of a body. -/
theorem not_keeps_start (signature : Signature) (expr : Expr) : ¬ (start signature).Keeps expr := by
  intro keeps
  -- even a test that fails everywhere holds of all that is kept there
  have holds : (start signature).HoldsAround fun _ => false := holdsAround_start signature
  exact absurd (Expr.all_self (holds.all_of_keeps keeps)) Bool.false_ne_true

/-- What is kept on the way through a body stands in the body. -/
theorem Passes.mem_subterms {body left : List Stmt} (passes : Passes signature body (start signature) left there)
    {expr : Expr} (keeps : there.Keeps expr) : expr ∈ stmtsSubterms body := by
  obtain ⟨test, every, inBody⟩ := exists_test body
  exact inBody expr (Expr.all_self ((passes.holds every (holdsAround_start signature)).all_of_keeps keeps))

end Walk

/-! ## The recursion -/

/-- To trace the one body is to ask how the other is traced: the outline changes with the answer. -/
def Consults (framework : String) (outer inner : Signature × List Stmt) : Prop :=
  ∃ tracer other : Tracer, (∀ signature body, (signature, body) ≠ inner → tracer signature body = other signature body) ∧
    outlineWith tracer framework outer.1 outer.2 ≠ outlineWith other framework outer.1 outer.2

/-- Only function literals in a body are asked for. -/
theorem Consults.literal {framework : String} {outer inner : Signature × List Stmt}
    (consults : Consults framework outer inner) :
    ∃ span params results, .func span params results inner.2 ∈ stmtsSubterms outer.2 := by
  obtain ⟨tracer, other, agree, differ⟩ := consults
  by_contra none
  refine differ (outlineWith_agree framework outer.1 fun {span params results literal} member signature => ?_)
  refine agree signature literal ?_
  rintro rfl
  exact none ⟨span, params, results, member⟩

theorem Consults.smaller {framework : String} {outer inner : Signature × List Stmt}
    (consults : Consults framework outer inner) : stmtsSize inner.2 < stmtsSize outer.2 := by
  obtain ⟨span, params, results, member⟩ := consults.literal
  exact stmtsSize_lt_of_func_mem member

theorem trace_eq_outlineWith (framework : String) : trace framework = outlineWith (trace framework) framework := by
  funext signature body
  refine outlineWith_agree framework signature fun member inner => ?_
  exact outline_eq_trace framework inner (stmtsSize_lt_of_func_mem member)

/-- A tracer that traces literals by itself is the trace. -/
theorem eq_trace_of_eq_outlineWith {framework : String} {tracer : Tracer} (solves : tracer = outlineWith tracer framework) :
    tracer = trace framework := by
  have bySize : ∀ (size : Nat) (signature : Signature) (body : List Stmt), stmtsSize body = size →
      tracer signature body = trace framework signature body := by
    intro size
    induction size using Nat.strongRecOn with
    | ind size ih =>
      rintro signature body rfl
      rw [solves, trace_eq_outlineWith]
      exact outlineWith_agree framework signature fun member inner => ih _ (stmtsSize_lt_of_func_mem member) inner _ rfl
  funext signature body
  exact bySize _ signature body rfl

/-- **Tracing comes to an end.** What is kept anywhere on the way through a body is an expression of the body and smaller
than it, every exit is met on that way, and nothing is kept at its beginning. Tracing a body asks only for traces of
function literals that stand in it, whose bodies are smaller, so that there is no endless chain of questions. And there is
exactly one way to trace all bodies in which function literals are traced in the same way. -/
theorem tracing_terminates (framework : String) :
    (∀ signature body left there, Walk.Passes signature body (.start signature) left there → ∀ expr, there.Keeps expr →
      expr ∈ stmtsSubterms body ∧ expr.size < stmtsSize body) ∧
    (∀ signature body, ∀ exit ∈ (walk signature body).exits,
      Walk.Meets signature body (.start signature) exit.update exit.defaults) ∧
    (∀ signature expr, ¬ (Walk.start signature).Keeps expr) ∧
    (∀ outer inner, Consults framework outer inner →
      (∃ span params results, .func span params results inner.2 ∈ stmtsSubterms outer.2) ∧
        stmtsSize inner.2 < stmtsSize outer.2) ∧
    WellFounded (fun inner outer => Consults framework outer inner) ∧
    ∀ tracer, tracer = outlineWith tracer framework ↔ tracer = trace framework := by
  refine ⟨fun signature body left there passes expr keeps => ?_, fun _ _ _ => Walk.meets_of_mem_exits,
    Walk.not_keeps_start, fun outer inner consults => ⟨consults.literal, consults.smaller⟩, ?_, fun tracer => ?_⟩
  · have member := passes.mem_subterms keeps
    exact ⟨member, stmtsSize_lt_of_mem body expr member⟩
  · exact Subrelation.wf Consults.smaller (measure fun traced : Signature × List Stmt => stmtsSize traced.2).wf
  · constructor
    · exact eq_trace_of_eq_outlineWith
    · rintro rfl
      exact trace_eq_outlineWith framework

end StepChart
