import StepChart.Guard.Label
import StepChart.Proofs.Syntax.Everywhere
import StepChart.Syntax.Size

/-!
# Trees with other fields

A tree in which the parameters and results of all function literals are changed, at any depth. Names, spans and labels
do not show it, and neither do sizes if the fields keep theirs.
-/

namespace StepChart

open Syntax

namespace Syntax

mutual

/-- The expression with the fields of function literals changed. -/
def Expr.withFields (change : Field → Field) : Expr → Expr
  | .ident span name => .ident span name
  | .literal span text => .literal span text
  | .other span => .other span
  | .selector span operand field => .selector span (operand.withFields change) field
  | .call span function args => .call span (function.withFields change) (exprsWithFields change args)
  | .composite span type elements => .composite span (exprWithFields? change type) (exprsWithFields change elements)
  | .keyValue span key value => .keyValue span (key.withFields change) (value.withFields change)
  | .unary span op operand => .unary span op (operand.withFields change)
  | .binary span op left right => .binary span op (left.withFields change) (right.withFields change)
  | .star span operand => .star span (operand.withFields change)
  | .paren span inner => .paren span (inner.withFields change)
  | .index span operand index => .index span (operand.withFields change) (index.withFields change)
  | .slice span operand => .slice span (operand.withFields change)
  | .typeAssert span operand type => .typeAssert span (operand.withFields change) (exprWithFields? change type)
  | .func span params results body =>
    .func span (params.map change) (results.map change) (stmtsWithFields change body)

/-- The same for an expression that may be left out. -/
def exprWithFields? (change : Field → Field) : Option Expr → Option Expr
  | none => none
  | some expr => some (expr.withFields change)

/-- The same for a list of expressions. -/
def exprsWithFields (change : Field → Field) : List Expr → List Expr
  | [] => []
  | expr :: exprs => expr.withFields change :: exprsWithFields change exprs

/-- The same for the values of specifications. -/
def specsWithFields (change : Field → Field) : List ValueSpec → List ValueSpec
  | [] => []
  | .mk names values :: specs => .mk names (exprsWithFields change values) :: specsWithFields change specs

/-- The statement with the fields of function literals changed. -/
def Stmt.withFields (change : Field → Field) : Stmt → Stmt
  | .typeDecl names => .typeDecl names
  | .branch kind => .branch kind
  | .empty => .empty
  | .block body => .block (stmtsWithFields change body)
  | .switch body => .switch (stmtsWithFields change body)
  | .typeSwitch body => .typeSwitch (stmtsWithFields change body)
  | .forLoop body => .forLoop (stmtsWithFields change body)
  | .range body => .range (stmtsWithFields change body)
  | .select body => .select (stmtsWithFields change body)
  | .constDecl specs => .constDecl (specsWithFields change specs)
  | .varDecl specs => .varDecl (specsWithFields change specs)
  | .expr value => .expr (value.withFields change)
  | .defer value => .defer (value.withFields change)
  | .go value => .go (value.withFields change)
  | .incDec value => .incDec (value.withFields change)
  | .assign targets values => .assign (exprsWithFields change targets) (exprsWithFields change values)
  | .ret results => .ret (exprsWithFields change results)
  | .ifElse cond body alternative =>
    .ifElse (cond.withFields change) (stmtsWithFields change body) (stmtWithFields? change alternative)
  | .caseClause alternatives body => .caseClause (exprsWithFields change alternatives) (stmtsWithFields change body)
  | .commClause comm body => .commClause (stmtWithFields? change comm) (stmtsWithFields change body)
  | .labeled label stmt => .labeled label (stmt.withFields change)
  | .send channel value => .send (channel.withFields change) (value.withFields change)

/-- The same for a statement that may be left out. -/
def stmtWithFields? (change : Field → Field) : Option Stmt → Option Stmt
  | none => none
  | some stmt => some (stmt.withFields change)

/-- The statements with the fields of function literals changed. -/
def stmtsWithFields (change : Field → Field) : List Stmt → List Stmt
  | [] => []
  | stmt :: stmts => stmt.withFields change :: stmtsWithFields change stmts

end

variable (change : Field → Field)

theorem exprsWithFields_eq_map (exprs : List Expr) :
    exprsWithFields change exprs = exprs.map (Expr.withFields change) := by
  induction exprs with
  | nil => rfl
  | cons expr exprs ih => rw [exprsWithFields, ih, List.map_cons]

theorem exprWithFields?_eq_map (expr : Option Expr) :
    exprWithFields? change expr = expr.map (Expr.withFields change) := by
  cases expr <;> rfl

theorem Expr.span_withFields (expr : Expr) : (expr.withFields change).span = expr.span := by
  cases expr <;> rfl

theorem Expr.qualifiedName_withFields (expr : Expr) : (expr.withFields change).qualifiedName = expr.qualifiedName := by
  cases expr with
  | selector span operand field => cases operand <;> rfl
  | _ => rfl

/-! ## Sizes -/

section Size

variable {change}

/-- The change keeps the sizes of fields. -/
def KeepsSize (change : Field → Field) : Prop := ∀ field : Field, (change field).size = field.size

theorem fieldsSize_map (same : KeepsSize change) (fields : List Field) :
    fieldsSize (fields.map change) = fieldsSize fields := by
  induction fields with
  | nil => rfl
  | cons field fields ih => rw [List.map_cons, fieldsSize, fieldsSize, ih, same field]

mutual

theorem Expr.size_withFields (same : KeepsSize change) : (expr : Expr) → (expr.withFields change).size = expr.size
  | .ident .. | .literal .. | .other _ => by simp only [Expr.withFields]
  | .selector _ operand _ | .unary _ _ operand | .star _ operand | .paren _ operand | .slice _ operand => by
    simp only [Expr.withFields, Expr.size, Expr.size_withFields same operand]
  | .call _ function args => by
    simp only [Expr.withFields, Expr.size, Expr.size_withFields same function, exprsSize_withFields same args]
  | .composite _ type elements => by
    simp only [Expr.withFields, Expr.size, exprSize?_withFields same type, exprsSize_withFields same elements]
  | .keyValue _ first second | .binary _ _ first second | .index _ first second => by
    simp only [Expr.withFields, Expr.size, Expr.size_withFields same first, Expr.size_withFields same second]
  | .typeAssert _ operand type => by
    simp only [Expr.withFields, Expr.size, Expr.size_withFields same operand, exprSize?_withFields same type]
  | .func _ params results body => by
    simp only [Expr.withFields, Expr.size, fieldsSize_map same, stmtsSize_withFields same body]

theorem exprSize?_withFields (same : KeepsSize change) :
    (expr : Option Expr) → exprSize? (exprWithFields? change expr) = exprSize? expr
  | none => rfl
  | some expr => by simp only [exprWithFields?, exprSize?, Expr.size_withFields same expr]

theorem exprsSize_withFields (same : KeepsSize change) :
    (exprs : List Expr) → exprsSize (exprsWithFields change exprs) = exprsSize exprs
  | [] => rfl
  | expr :: exprs => by
    simp only [exprsWithFields, exprsSize, Expr.size_withFields same expr, exprsSize_withFields same exprs]

theorem specsSize_withFields (same : KeepsSize change) :
    (specs : List ValueSpec) → specsSize (specsWithFields change specs) = specsSize specs
  | [] => rfl
  | .mk names values :: specs => by
    simp only [specsWithFields, specsSize, ValueSpec.size, exprsSize_withFields same values,
      specsSize_withFields same specs]

theorem Stmt.size_withFields (same : KeepsSize change) : (stmt : Stmt) → (stmt.withFields change).size = stmt.size
  | .typeDecl _ | .branch _ | .empty => by simp only [Stmt.withFields]
  | .block body | .switch body | .typeSwitch body | .forLoop body | .range body | .select body => by
    simp only [Stmt.withFields, Stmt.size, stmtsSize_withFields same body]
  | .constDecl specs | .varDecl specs => by simp only [Stmt.withFields, Stmt.size, specsSize_withFields same specs]
  | .expr value | .defer value | .go value | .incDec value => by
    simp only [Stmt.withFields, Stmt.size, Expr.size_withFields same value]
  | .assign targets values => by
    simp only [Stmt.withFields, Stmt.size, exprsSize_withFields same targets, exprsSize_withFields same values]
  | .ret results => by simp only [Stmt.withFields, Stmt.size, exprsSize_withFields same results]
  | .ifElse cond body alternative => by
    simp only [Stmt.withFields, Stmt.size, Expr.size_withFields same cond, stmtsSize_withFields same body,
      stmtSize?_withFields same alternative]
  | .caseClause alternatives body => by
    simp only [Stmt.withFields, Stmt.size, exprsSize_withFields same alternatives, stmtsSize_withFields same body]
  | .commClause comm body => by
    simp only [Stmt.withFields, Stmt.size, stmtSize?_withFields same comm, stmtsSize_withFields same body]
  | .labeled _ stmt => by simp only [Stmt.withFields, Stmt.size, Stmt.size_withFields same stmt]
  | .send channel value => by
    simp only [Stmt.withFields, Stmt.size, Expr.size_withFields same channel, Expr.size_withFields same value]

theorem stmtSize?_withFields (same : KeepsSize change) :
    (stmt : Option Stmt) → stmtSize? (stmtWithFields? change stmt) = stmtSize? stmt
  | none => rfl
  | some stmt => by simp only [stmtWithFields?, stmtSize?, Stmt.size_withFields same stmt]

theorem stmtsSize_withFields (same : KeepsSize change) :
    (stmts : List Stmt) → stmtsSize (stmtsWithFields change stmts) = stmtsSize stmts
  | [] => rfl
  | stmt :: stmts => by
    simp only [stmtsWithFields, stmtsSize, Stmt.size_withFields same stmt, stmtsSize_withFields same stmts]

end

end Size

end Syntax

/-! ## Labels -/

namespace Guard

variable (change : Field → Field)

mutual

theorem shorten_withFields : (expr : Expr) → (room : Int) → shorten (expr.withFields change) room = shorten expr room
  | .ident .., _ | .literal .., _ | .other _, _ => by simp only [Expr.withFields]
  | .selector _ operand _, _ | .star _ operand, _ | .paren _ operand, _ | .slice _ operand, _ => by
    simp only [Expr.withFields, shorten, shorten_withFields operand]
  | .unary _ op operand, _ => by
    cases op <;> simp only [Expr.withFields, shorten, shorten_withFields operand]
  | .call _ function _, _ => by simp only [Expr.withFields, shorten, shorten_withFields function]
  | .composite _ type _, _ => by simp only [Expr.withFields, shorten, shortenType_withFields type]
  | .binary _ _ left right, _ => by
    simp only [Expr.withFields, shorten, shorten_withFields left, shorten_withFields right]
  | .index _ operand _, _ | .typeAssert _ operand _, _ => by
    simp only [Expr.withFields, shorten, shorten_withFields operand]
  | .keyValue .., _ | .func .., _ => by simp only [Expr.withFields, shorten]

theorem shortenType_withFields : (type : Option Expr) → (room : Int) →
    shortenType (exprWithFields? change type) room = shortenType type room
  | none, _ => rfl
  | some type, _ => by simp only [exprWithFields?, shortenType, shorten_withFields type]

end

/-- The guard with its alternatives changed. -/
def map (f : Expr → Expr) (guard : Guard) : Guard := { guard with alternatives := guard.alternatives.map f }

variable (source : String)

theorem alternativeText_withFields (alternative : Expr) (room : Int) :
    alternativeText source (alternative.withFields change) room = alternativeText source alternative room := by
  simp only [alternativeText, shorten_withFields, Expr.span_withFields]

theorem extend_withFields (room : Int) (label : String) (alternatives : List Expr) :
    extend source room label (alternatives.map (Expr.withFields change)) = extend source room label alternatives := by
  induction alternatives generalizing label with
  | nil => rfl
  | cons alternative rest ih => simp only [List.map_cons, extend, alternativeText_withFields, ih]

/-- **Labels do not show the fields of function literals.** -/
theorem label_withFields (room : Nat) (guard : Guard) :
    label source room (guard.map (Expr.withFields change)) = label source room guard := by
  obtain ⟨alternatives, inverted⟩ := guard
  cases alternatives with
  | nil => rfl
  | cons first rest =>
    simp only [label, map, text, List.map_cons, alternativeText_withFields, extend_withFields]

end Guard

end StepChart
