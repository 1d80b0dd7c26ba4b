import StepChart.Syntax.Tree

/-!
# Properties of all expressions in a tree

`Expr.all` tests an expression and everything in it, the bodies of function literals included;
`stmtsAll` does so for a list of statements. The test is one that goes from a tree to its parts, which is
all that is needed to follow expressions that are kept and used later.
-/

namespace StepChart.Syntax

mutual

/-- The test holds for an expression and all expressions in it. -/
def Expr.all (test : Expr → Bool) (expr : Expr) : Bool :=
  test expr && match expr with
    | .ident .. | .literal .. | .other _ => true
    | .selector _ operand _ | .unary _ _ operand | .star _ operand | .paren _ operand | .slice _ operand =>
      operand.all test
    | .call _ function args => function.all test && exprsAll test args
    | .composite _ type elements => exprAll? test type && exprsAll test elements
    | .keyValue _ first second | .binary _ _ first second | .index _ first second => first.all test && second.all test
    | .typeAssert _ operand type => operand.all test && exprAll? test type
    | .func _ params results body => fieldsAll test params && fieldsAll test results && stmtsAll test body

/-- The test holds in an expression that may be left out. -/
def exprAll? (test : Expr → Bool) : Option Expr → Bool
  | none => true
  | some expr => expr.all test

/-- The test holds in a list of expressions. -/
def exprsAll (test : Expr → Bool) : List Expr → Bool
  | [] => true
  | expr :: exprs => expr.all test && exprsAll test exprs

/-- The test holds in the types of fields. -/
def fieldsAll (test : Expr → Bool) : List Field → Bool
  | [] => true
  | .mk _ type _ :: fields => type.all test && fieldsAll test fields

/-- The test holds in the values of specifications. -/
def specsAll (test : Expr → Bool) : List ValueSpec → Bool
  | [] => true
  | .mk _ values :: specs => exprsAll test values && specsAll test specs

/-- The test holds for all expressions in a statement. -/
def Stmt.all (test : Expr → Bool) : Stmt → Bool
  | .typeDecl _ | .branch _ | .empty => true
  | .block body | .switch body | .typeSwitch body | .forLoop body | .range body | .select body => stmtsAll test body
  | .constDecl specs | .varDecl specs => specsAll test specs
  | .expr value | .defer value | .go value | .incDec value => value.all test
  | .assign targets values => exprsAll test targets && exprsAll test values
  | .ret results => exprsAll test results
  | .ifElse cond body alternative => cond.all test && stmtsAll test body && stmtAll? test alternative
  | .caseClause alternatives body => exprsAll test alternatives && stmtsAll test body
  | .commClause comm body => stmtAll? test comm && stmtsAll test body
  | .labeled _ stmt => stmt.all test
  | .send channel value => channel.all test && value.all test

/-- The test holds in a statement that may be left out. -/
def stmtAll? (test : Expr → Bool) : Option Stmt → Bool
  | none => true
  | some stmt => stmt.all test

/-- The test holds for all expressions in a list of statements. -/
def stmtsAll (test : Expr → Bool) : List Stmt → Bool
  | [] => true
  | stmt :: stmts => stmt.all test && stmtsAll test stmts

end

variable {test : Expr → Bool}

theorem Expr.all_self {expr : Expr} (every : expr.all test = true) : test expr = true := by
  unfold Expr.all at every
  exact (Bool.and_eq_true_iff.1 every).1

/-! ## From an expression to its parts

On a constructor the test computes, so that what is given is a conjunction already. -/

section Parts

variable {span : Span}

theorem Expr.all_selector {operand : Expr} {field : String} (every : (Expr.selector span operand field).all test = true) :
    operand.all test = true :=
  (Bool.and_eq_true_iff.1 every).2

theorem Expr.all_unary {op : UnaryOp} {operand : Expr} (every : (Expr.unary span op operand).all test = true) :
    operand.all test = true :=
  (Bool.and_eq_true_iff.1 every).2

theorem Expr.all_call {function : Expr} {args : List Expr} (every : (Expr.call span function args).all test = true) :
    function.all test = true ∧ exprsAll test args = true :=
  Bool.and_eq_true_iff.1 (Bool.and_eq_true_iff.1 every).2

theorem Expr.all_composite {type : Option Expr} {elements : List Expr}
    (every : (Expr.composite span type elements).all test = true) :
    exprAll? test type = true ∧ exprsAll test elements = true :=
  Bool.and_eq_true_iff.1 (Bool.and_eq_true_iff.1 every).2

theorem Expr.all_keyValue {key value : Expr} (every : (Expr.keyValue span key value).all test = true) :
    key.all test = true ∧ value.all test = true :=
  Bool.and_eq_true_iff.1 (Bool.and_eq_true_iff.1 every).2

theorem Expr.all_binary {op : String} {left right : Expr} (every : (Expr.binary span op left right).all test = true) :
    left.all test = true ∧ right.all test = true :=
  Bool.and_eq_true_iff.1 (Bool.and_eq_true_iff.1 every).2

theorem Expr.all_func {params results : List Field} {body : List Stmt}
    (every : (Expr.func span params results body).all test = true) : stmtsAll test body = true :=
  (Bool.and_eq_true_iff.1 (Bool.and_eq_true_iff.1 every).2).2

end Parts

theorem exprsAll_iff {exprs : List Expr} : exprsAll test exprs = true ↔ ∀ expr ∈ exprs, expr.all test = true := by
  induction exprs with
  | nil => simp [exprsAll]
  | cons expr exprs ih => simp [exprsAll, ih]

theorem specsAll_iff {specs : List ValueSpec} :
    specsAll test specs = true ↔ ∀ spec ∈ specs, exprsAll test spec.values = true := by
  induction specs with
  | nil => simp [specsAll]
  | cons spec specs ih =>
    obtain ⟨names, values⟩ := spec
    simp [specsAll, ih, ValueSpec.values]

end StepChart.Syntax
