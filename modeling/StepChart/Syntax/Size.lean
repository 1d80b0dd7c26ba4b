import StepChart.Syntax.Tree

/-!
# Sizes of syntax trees

The size of a tree counts its nodes. A part of a tree is smaller than the whole, in particular the
body of a function literal is smaller than any statement list it is written in.
-/

namespace StepChart.Syntax

mutual

/-- The number of nodes in an expression. -/
def Expr.size : Expr → Nat
  | .ident .. | .literal .. | .other _ => 1
  | .selector _ operand _ => operand.size + 1
  | .call _ function args => function.size + exprsSize args + 1
  | .composite _ type elements => exprSize? type + exprsSize elements + 1
  | .keyValue _ key value => key.size + value.size + 1
  | .unary _ _ operand => operand.size + 1
  | .binary _ _ left right => left.size + right.size + 1
  | .star _ operand => operand.size + 1
  | .paren _ inner => inner.size + 1
  | .index _ operand index => operand.size + index.size + 1
  | .slice _ operand => operand.size + 1
  | .typeAssert _ operand type => operand.size + exprSize? type + 1
  | .func _ params results body => fieldsSize params + fieldsSize results + stmtsSize body + 1

/-- The number of nodes in an expression that may be left out. -/
def exprSize? : Option Expr → Nat
  | none => 0
  | some expr => expr.size

/-- The number of nodes in a list of expressions. -/
def exprsSize : List Expr → Nat
  | [] => 0
  | expr :: exprs => expr.size + exprsSize exprs

/-- The number of nodes in a field. -/
def Field.size : Field → Nat
  | .mk _ type _ => type.size + 1

/-- The number of nodes in a list of fields. -/
def fieldsSize : List Field → Nat
  | [] => 0
  | field :: fields => field.size + fieldsSize fields

/-- The number of nodes in a specification. -/
def ValueSpec.size : ValueSpec → Nat
  | .mk _ values => exprsSize values + 1

/-- The number of nodes in a list of specifications. -/
def specsSize : List ValueSpec → Nat
  | [] => 0
  | spec :: specs => spec.size + specsSize specs

/-- The number of nodes in a statement. -/
def Stmt.size : Stmt → Nat
  | .typeDecl _ | .branch _ | .empty => 1
  | .block body | .switch body | .typeSwitch body | .forLoop body | .range body | .select body =>
    stmtsSize body + 1
  | .constDecl specs | .varDecl specs => specsSize specs + 1
  | .expr value | .defer value | .go value | .incDec value => value.size + 1
  | .assign targets values => exprsSize targets + exprsSize values + 1
  | .ret results => exprsSize results + 1
  | .ifElse cond body alternative => cond.size + stmtsSize body + stmtSize? alternative + 1
  | .caseClause alternatives body => exprsSize alternatives + stmtsSize body + 1
  | .commClause comm body => stmtSize? comm + stmtsSize body + 1
  | .labeled _ stmt => stmt.size + 1
  | .send channel value => channel.size + value.size + 1

/-- The number of nodes in a statement that may be left out. -/
def stmtSize? : Option Stmt → Nat
  | none => 0
  | some stmt => stmt.size

/-- The number of nodes in a list of statements. -/
def stmtsSize : List Stmt → Nat
  | [] => 0
  | stmt :: stmts => stmt.size + stmtsSize stmts

end

end StepChart.Syntax
