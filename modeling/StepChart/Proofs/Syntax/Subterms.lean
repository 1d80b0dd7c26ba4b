import StepChart.Proofs.Syntax.Everywhere
import StepChart.Syntax.Size

/-!
# Sub-terms

The expressions in a tree as a list, those in the bodies of function literals included. A test holds everywhere in a tree
if it holds of each of them (`stmtsAll_iff_subterms`), and each of them is smaller than the statements it stands in
(`stmtsSize_lt_of_mem`).
-/

namespace StepChart.Syntax

mutual

/-- An expression and all expressions in it. -/
def Expr.subterms (expr : Expr) : List Expr :=
  expr :: match expr with
    | .ident .. | .literal .. | .other _ => []
    | .selector _ operand _ | .unary _ _ operand | .star _ operand | .paren _ operand | .slice _ operand =>
      operand.subterms
    | .call _ function args => function.subterms ++ exprsSubterms args
    | .composite _ type elements => exprSubterms? type ++ exprsSubterms elements
    | .keyValue _ first second | .binary _ _ first second | .index _ first second => first.subterms ++ second.subterms
    | .typeAssert _ operand type => operand.subterms ++ exprSubterms? type
    | .func _ params results body => fieldsSubterms params ++ fieldsSubterms results ++ stmtsSubterms body

/-- The expressions in an expression that may be left out. -/
def exprSubterms? : Option Expr → List Expr
  | none => []
  | some expr => expr.subterms

/-- The expressions in a list of expressions. -/
def exprsSubterms : List Expr → List Expr
  | [] => []
  | expr :: exprs => expr.subterms ++ exprsSubterms exprs

/-- The expressions in the types of fields. -/
def fieldsSubterms : List Field → List Expr
  | [] => []
  | .mk _ type _ :: fields => type.subterms ++ fieldsSubterms fields

/-- The expressions in the values of specifications. -/
def specsSubterms : List ValueSpec → List Expr
  | [] => []
  | .mk _ values :: specs => exprsSubterms values ++ specsSubterms specs

/-- The expressions in a statement. -/
def Stmt.subterms : Stmt → List Expr
  | .typeDecl _ | .branch _ | .empty => []
  | .block body | .switch body | .typeSwitch body | .forLoop body | .range body | .select body => stmtsSubterms body
  | .constDecl specs | .varDecl specs => specsSubterms specs
  | .expr value | .defer value | .go value | .incDec value => value.subterms
  | .assign targets values => exprsSubterms targets ++ exprsSubterms values
  | .ret results => exprsSubterms results
  | .ifElse cond body alternative => cond.subterms ++ stmtsSubterms body ++ stmtSubterms? alternative
  | .caseClause alternatives body => exprsSubterms alternatives ++ stmtsSubterms body
  | .commClause comm body => stmtSubterms? comm ++ stmtsSubterms body
  | .labeled _ stmt => stmt.subterms
  | .send channel value => channel.subterms ++ value.subterms

/-- The expressions in a statement that may be left out. -/
def stmtSubterms? : Option Stmt → List Expr
  | none => []
  | some stmt => stmt.subterms

/-- The expressions in a list of statements. -/
def stmtsSubterms : List Stmt → List Expr
  | [] => []
  | stmt :: stmts => stmt.subterms ++ stmtsSubterms stmts

end

/-! ## Tests -/

section Tests

variable {test : Expr → Bool}

mutual

theorem Expr.all_iff_subterms : (expr : Expr) → (expr.all test = true ↔ ∀ inner ∈ expr.subterms, test inner = true)
  | .ident .. | .literal .. | .other _ => by
    rw [Expr.all, Expr.subterms]
    simp
  | .selector _ operand _ | .unary _ _ operand | .star _ operand | .paren _ operand | .slice _ operand => by
    rw [Expr.all, Expr.subterms, List.forall_mem_cons, Bool.and_eq_true, Expr.all_iff_subterms operand]
  | .call _ function args => by
    rw [Expr.all, Expr.subterms, List.forall_mem_cons, List.forall_mem_append, Bool.and_eq_true, Bool.and_eq_true,
      Expr.all_iff_subterms function, exprsAll_iff_subterms args]
  | .composite _ type elements => by
    rw [Expr.all, Expr.subterms, List.forall_mem_cons, List.forall_mem_append, Bool.and_eq_true, Bool.and_eq_true,
      exprAll?_iff_subterms type, exprsAll_iff_subterms elements]
  | .keyValue _ first second | .binary _ _ first second | .index _ first second => by
    rw [Expr.all, Expr.subterms, List.forall_mem_cons, List.forall_mem_append, Bool.and_eq_true, Bool.and_eq_true,
      Expr.all_iff_subterms first, Expr.all_iff_subterms second]
  | .typeAssert _ operand type => by
    rw [Expr.all, Expr.subterms, List.forall_mem_cons, List.forall_mem_append, Bool.and_eq_true, Bool.and_eq_true,
      Expr.all_iff_subterms operand, exprAll?_iff_subterms type]
  | .func _ params results body => by
    rw [Expr.all, Expr.subterms, List.forall_mem_cons, List.forall_mem_append, List.forall_mem_append,
      Bool.and_eq_true, Bool.and_eq_true, Bool.and_eq_true, fieldsAll_iff_subterms params,
      fieldsAll_iff_subterms results, stmtsAll_iff_subterms body]

theorem exprAll?_iff_subterms :
    (expr : Option Expr) → (exprAll? test expr = true ↔ ∀ inner ∈ exprSubterms? expr, test inner = true)
  | none => by simp [exprAll?, exprSubterms?]
  | some expr => Expr.all_iff_subterms expr

theorem exprsAll_iff_subterms :
    (exprs : List Expr) → (exprsAll test exprs = true ↔ ∀ inner ∈ exprsSubterms exprs, test inner = true)
  | [] => by simp [exprsAll, exprsSubterms]
  | expr :: exprs => by
    rw [exprsAll, exprsSubterms, List.forall_mem_append, Bool.and_eq_true, Expr.all_iff_subterms expr,
      exprsAll_iff_subterms exprs]

theorem fieldsAll_iff_subterms :
    (fields : List Field) → (fieldsAll test fields = true ↔ ∀ inner ∈ fieldsSubterms fields, test inner = true)
  | [] => by simp [fieldsAll, fieldsSubterms]
  | .mk _ type _ :: fields => by
    rw [fieldsAll, fieldsSubterms, List.forall_mem_append, Bool.and_eq_true, Expr.all_iff_subterms type,
      fieldsAll_iff_subterms fields]

theorem specsAll_iff_subterms :
    (specs : List ValueSpec) → (specsAll test specs = true ↔ ∀ inner ∈ specsSubterms specs, test inner = true)
  | [] => by simp [specsAll, specsSubterms]
  | .mk _ values :: specs => by
    rw [specsAll, specsSubterms, List.forall_mem_append, Bool.and_eq_true, exprsAll_iff_subterms values,
      specsAll_iff_subterms specs]

theorem Stmt.all_iff_subterms : (stmt : Stmt) → (stmt.all test = true ↔ ∀ inner ∈ stmt.subterms, test inner = true)
  | .typeDecl _ | .branch _ | .empty => by simp [Stmt.all, Stmt.subterms]
  | .block body | .switch body | .typeSwitch body | .forLoop body | .range body | .select body =>
    stmtsAll_iff_subterms body
  | .constDecl specs | .varDecl specs => specsAll_iff_subterms specs
  | .expr value | .defer value | .go value | .incDec value => Expr.all_iff_subterms value
  | .assign targets values => by
    rw [Stmt.all, Stmt.subterms, List.forall_mem_append, Bool.and_eq_true, exprsAll_iff_subterms targets,
      exprsAll_iff_subterms values]
  | .ret results => exprsAll_iff_subterms results
  | .ifElse cond body alternative => by
    rw [Stmt.all, Stmt.subterms, List.forall_mem_append, List.forall_mem_append, Bool.and_eq_true, Bool.and_eq_true,
      Expr.all_iff_subterms cond, stmtsAll_iff_subterms body, stmtAll?_iff_subterms alternative]
  | .caseClause alternatives body => by
    rw [Stmt.all, Stmt.subterms, List.forall_mem_append, Bool.and_eq_true, exprsAll_iff_subterms alternatives,
      stmtsAll_iff_subterms body]
  | .commClause comm body => by
    rw [Stmt.all, Stmt.subterms, List.forall_mem_append, Bool.and_eq_true, stmtAll?_iff_subterms comm,
      stmtsAll_iff_subterms body]
  | .labeled _ stmt => Stmt.all_iff_subterms stmt
  | .send channel value => by
    rw [Stmt.all, Stmt.subterms, List.forall_mem_append, Bool.and_eq_true, Expr.all_iff_subterms channel,
      Expr.all_iff_subterms value]

theorem stmtAll?_iff_subterms :
    (stmt : Option Stmt) → (stmtAll? test stmt = true ↔ ∀ inner ∈ stmtSubterms? stmt, test inner = true)
  | none => by simp [stmtAll?, stmtSubterms?]
  | some stmt => Stmt.all_iff_subterms stmt

/-- **A test holds everywhere** in a list of statements if it holds of every expression in it. -/
theorem stmtsAll_iff_subterms :
    (stmts : List Stmt) → (stmtsAll test stmts = true ↔ ∀ inner ∈ stmtsSubterms stmts, test inner = true)
  | [] => by simp [stmtsAll, stmtsSubterms]
  | stmt :: stmts => by
    rw [stmtsAll, stmtsSubterms, List.forall_mem_append, Bool.and_eq_true, Stmt.all_iff_subterms stmt,
      stmtsAll_iff_subterms stmts]

end

theorem exprsAll_of_forall (always : ∀ expr, test expr = true) (exprs : List Expr) : exprsAll test exprs = true :=
  (exprsAll_iff_subterms exprs).2 fun inner _ => always inner

/-- There is a test for the expressions in a list of statements. -/
theorem exists_test (stmts : List Stmt) :
    ∃ test : Expr → Bool, stmtsAll test stmts = true ∧ ∀ expr, test expr = true → expr ∈ stmtsSubterms stmts := by
  classical
  refine ⟨fun expr => decide (expr ∈ stmtsSubterms stmts), ?_, fun expr => of_decide_eq_true⟩
  exact (stmtsAll_iff_subterms stmts).2 fun inner member => decide_eq_true member

end Tests

/-! ## Sizes -/

/-- A bound on the sizes in two lists. -/
theorem forall_size_append {first second : List Expr} {one other : Nat} (inFirst : ∀ inner ∈ first, inner.size ≤ one)
    (inSecond : ∀ inner ∈ second, inner.size ≤ other) : ∀ inner ∈ first ++ second, inner.size ≤ one + other := by
  intro inner member
  rcases List.mem_append.1 member with here | there
  · have := inFirst inner here
    omega
  · have := inSecond inner there
    omega

mutual

theorem Expr.size_le_of_mem_subterms : (expr : Expr) → ∀ inner ∈ expr.subterms, inner.size ≤ expr.size
  | .ident .. | .literal .. | .other _ => by
    rw [Expr.subterms]
    simp
  | .selector _ operand _ | .unary _ _ operand | .star _ operand | .paren _ operand | .slice _ operand => by
    rw [Expr.subterms, List.forall_mem_cons]
    refine ⟨Nat.le_refl _, fun inner member => ?_⟩
    have := Expr.size_le_of_mem_subterms operand inner member
    rw [Expr.size]
    omega
  | .call _ function args => by
    rw [Expr.subterms, List.forall_mem_cons]
    refine ⟨Nat.le_refl _, fun inner member => ?_⟩
    have := forall_size_append (Expr.size_le_of_mem_subterms function) (exprsSize_le_of_mem args) inner member
    rw [Expr.size]
    omega
  | .composite _ type elements => by
    rw [Expr.subterms, List.forall_mem_cons]
    refine ⟨Nat.le_refl _, fun inner member => ?_⟩
    have := forall_size_append (exprSize?_le_of_mem type) (exprsSize_le_of_mem elements) inner member
    rw [Expr.size]
    omega
  | .keyValue _ first second | .binary _ _ first second | .index _ first second => by
    rw [Expr.subterms, List.forall_mem_cons]
    refine ⟨Nat.le_refl _, fun inner member => ?_⟩
    have := forall_size_append (Expr.size_le_of_mem_subterms first) (Expr.size_le_of_mem_subterms second) inner member
    rw [Expr.size]
    omega
  | .typeAssert _ operand type => by
    rw [Expr.subterms, List.forall_mem_cons]
    refine ⟨Nat.le_refl _, fun inner member => ?_⟩
    have := forall_size_append (Expr.size_le_of_mem_subterms operand) (exprSize?_le_of_mem type) inner member
    rw [Expr.size]
    omega
  | .func _ params results body => by
    rw [Expr.subterms, List.forall_mem_cons]
    refine ⟨Nat.le_refl _, fun inner member => ?_⟩
    have := forall_size_append (forall_size_append (fieldsSize_le_of_mem params) (fieldsSize_le_of_mem results))
      (fun inner member => Nat.le_of_lt (stmtsSize_lt_of_mem body inner member)) inner member
    rw [Expr.size]
    omega

theorem exprSize?_le_of_mem : (expr : Option Expr) → ∀ inner ∈ exprSubterms? expr, inner.size ≤ exprSize? expr
  | none => List.forall_mem_nil _
  | some expr => Expr.size_le_of_mem_subterms expr

theorem exprsSize_le_of_mem : (exprs : List Expr) → ∀ inner ∈ exprsSubterms exprs, inner.size ≤ exprsSize exprs
  | [] => List.forall_mem_nil _
  | expr :: exprs => forall_size_append (Expr.size_le_of_mem_subterms expr) (exprsSize_le_of_mem exprs)

theorem fieldsSize_le_of_mem : (fields : List Field) → ∀ inner ∈ fieldsSubterms fields, inner.size ≤ fieldsSize fields
  | [] => List.forall_mem_nil _
  | .mk _ type _ :: fields => fun inner member => by
    have := forall_size_append (Expr.size_le_of_mem_subterms type) (fieldsSize_le_of_mem fields) inner member
    rw [fieldsSize, Field.size]
    omega

theorem specsSize_le_of_mem : (specs : List ValueSpec) → ∀ inner ∈ specsSubterms specs, inner.size ≤ specsSize specs
  | [] => List.forall_mem_nil _
  | .mk _ values :: specs => fun inner member => by
    have := forall_size_append (exprsSize_le_of_mem values) (specsSize_le_of_mem specs) inner member
    rw [specsSize, ValueSpec.size]
    omega

theorem Stmt.size_lt_of_mem_subterms : (stmt : Stmt) → ∀ inner ∈ stmt.subterms, inner.size < stmt.size
  | .typeDecl _ | .branch _ | .empty => List.forall_mem_nil _
  | .block body | .switch body | .typeSwitch body | .forLoop body | .range body | .select body => fun inner member => by
    have := stmtsSize_lt_of_mem body inner member
    rw [Stmt.size]
    omega
  | .constDecl specs | .varDecl specs => fun inner member => by
    have := specsSize_le_of_mem specs inner member
    rw [Stmt.size]
    omega
  | .expr value | .defer value | .go value | .incDec value => fun inner member => by
    have := Expr.size_le_of_mem_subterms value inner member
    rw [Stmt.size]
    omega
  | .assign targets values => fun inner member => by
    have := forall_size_append (exprsSize_le_of_mem targets) (exprsSize_le_of_mem values) inner member
    rw [Stmt.size]
    omega
  | .ret results => fun inner member => by
    have := exprsSize_le_of_mem results inner member
    rw [Stmt.size]
    omega
  | .ifElse cond body alternative => fun inner member => by
    have := forall_size_append (forall_size_append (Expr.size_le_of_mem_subterms cond)
      fun inner member => Nat.le_of_lt (stmtsSize_lt_of_mem body inner member))
      (stmtSize?_le_of_mem alternative) inner member
    rw [Stmt.size]
    omega
  | .caseClause alternatives body => fun inner member => by
    have := forall_size_append (exprsSize_le_of_mem alternatives)
      (fun inner member => Nat.le_of_lt (stmtsSize_lt_of_mem body inner member)) inner member
    rw [Stmt.size]
    omega
  | .commClause comm body => fun inner member => by
    have := forall_size_append (stmtSize?_le_of_mem comm)
      (fun inner member => Nat.le_of_lt (stmtsSize_lt_of_mem body inner member)) inner member
    rw [Stmt.size]
    omega
  | .labeled _ stmt => fun inner member => by
    have := Stmt.size_lt_of_mem_subterms stmt inner member
    rw [Stmt.size]
    omega
  | .send channel value => fun inner member => by
    have := forall_size_append (Expr.size_le_of_mem_subterms channel) (Expr.size_le_of_mem_subterms value) inner member
    rw [Stmt.size]
    omega

theorem stmtSize?_le_of_mem : (stmt : Option Stmt) → ∀ inner ∈ stmtSubterms? stmt, inner.size ≤ stmtSize? stmt
  | none => List.forall_mem_nil _
  | some stmt => fun inner member => Nat.le_of_lt (Stmt.size_lt_of_mem_subterms stmt inner member)

/-- **An expression is smaller than the statements it stands in.** -/
theorem stmtsSize_lt_of_mem : (stmts : List Stmt) → ∀ inner ∈ stmtsSubterms stmts, inner.size < stmtsSize stmts
  | [] => List.forall_mem_nil _
  | stmt :: stmts => fun inner member => by
    rw [stmtsSize]
    rcases List.mem_append.1 member with here | later
    · have := Stmt.size_lt_of_mem_subterms stmt inner here
      omega
    · have := stmtsSize_lt_of_mem stmts inner later
      omega

end

/-- The body of a function literal is smaller than the statements that the literal stands in. -/
theorem stmtsSize_lt_of_func_mem {span : Span} {params results : List Field} {literal stmts : List Stmt}
    (member : .func span params results literal ∈ stmtsSubterms stmts) : stmtsSize literal < stmtsSize stmts := by
  have smaller := stmtsSize_lt_of_mem stmts _ member
  rw [Expr.size] at smaller
  omega

end StepChart.Syntax
