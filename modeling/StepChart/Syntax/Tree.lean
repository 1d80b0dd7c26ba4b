import StepChart.Syntax.Span

/-!
# Syntax trees of Go source

The declarations, statements and expressions that the analysis reads. Every expression carries the
byte range it was read from; syntax without a meaning for the analysis (map, channel and function
types, say) is `Expr.other`.
-/

namespace StepChart.Syntax

/-- The operators with one operand, apart from the pointer star. -/
inductive UnaryOp where
  | address | not | complement | negate | plus | receive
deriving Repr, DecidableEq, Inhabited

/-- The token that writes the operator. -/
def UnaryOp.token : UnaryOp → String
  | .address => "&"
  | .not => "!"
  | .complement => "^"
  | .negate => "-"
  | .plus => "+"
  | .receive => "<-"

/-- The operator a token writes. -/
def UnaryOp.ofToken? (token : String) : Option UnaryOp :=
  [UnaryOp.address, .not, .complement, .negate, .plus, .receive].find? (·.token == token)

/-- The statements that leave the flow of a statement list other than by returning. -/
inductive Branch where
  | break | continue | goto | fallthrough
deriving Repr, DecidableEq, Inhabited

mutual

/-- An expression or a type. -/
inductive Expr where
  | ident (span : Span) (name : String)
  | selector (span : Span) (operand : Expr) (field : String)
  | call (span : Span) (function : Expr) (args : List Expr)
  | composite (span : Span) (type : Option Expr) (elements : List Expr)
  | keyValue (span : Span) (key value : Expr)
  | unary (span : Span) (op : UnaryOp) (operand : Expr)
  | binary (span : Span) (op : String) (left right : Expr)
  | star (span : Span) (operand : Expr)
  | paren (span : Span) (inner : Expr)
  | index (span : Span) (operand index : Expr)
  | slice (span : Span) (operand : Expr)
  | typeAssert (span : Span) (operand : Expr) (type : Option Expr)
  | func (span : Span) (params results : List Field) (body : List Stmt)
  | literal (span : Span) (text : String)
  | other (span : Span)

/-- One entry of a parameter, result or receiver list: names that share a type, or a type alone. -/
inductive Field where
  | mk (names : List String) (type : Expr) (variadic : Bool)

/-- Names declared together, with the values that initialise them. -/
inductive ValueSpec where
  | mk (names : List String) (values : List Expr)

/-- A statement. The bodies of `switch`, `typeSwitch` and `select` hold their clauses. -/
inductive Stmt where
  | block (body : List Stmt)
  | constDecl (specs : List ValueSpec)
  | varDecl (specs : List ValueSpec)
  | typeDecl (names : List String)
  | expr (value : Expr)
  | assign (targets values : List Expr)
  | ret (results : List Expr)
  | branch (kind : Branch)
  | ifElse (cond : Expr) (body : List Stmt) (alternative : Option Stmt)
  | switch (body : List Stmt)
  | typeSwitch (body : List Stmt)
  | caseClause (alternatives : List Expr) (body : List Stmt)
  | forLoop (body : List Stmt)
  | range (body : List Stmt)
  | select (body : List Stmt)
  | commClause (comm : Option Stmt) (body : List Stmt)
  | labeled (label : String) (stmt : Stmt)
  | defer (call : Expr)
  | go (call : Expr)
  | send (channel value : Expr)
  | incDec (operand : Expr)
  | empty

end

instance : Inhabited Expr := ⟨.other default⟩
instance : Inhabited Field := ⟨.mk [] default false⟩
instance : Inhabited ValueSpec := ⟨.mk [] []⟩
instance : Inhabited Stmt := ⟨.empty⟩

/-- The byte range an expression was read from. -/
def Expr.span : Expr → Span
  | .ident span _ | .selector span _ _ | .call span _ _ | .composite span _ _ | .keyValue span _ _
  | .unary span _ _ | .binary span _ _ _ | .star span _ | .paren span _ | .index span _ _ | .slice span _
  | .typeAssert span _ _ | .func span _ _ _ | .literal span _ | .other span => span

/-- The names of a field. -/
def Field.names : Field → List String
  | .mk names _ _ => names

/-- The type of a field. -/
def Field.type : Field → Expr
  | .mk _ type _ => type

/-- The field takes any number of values. -/
def Field.variadic : Field → Bool
  | .mk _ _ variadic => variadic

/-- The names a specification declares. -/
def ValueSpec.names : ValueSpec → List String
  | .mk names _ => names

/-- The values of a specification. -/
def ValueSpec.values : ValueSpec → List Expr
  | .mk _ values => values

/-- The qualifier and the name in `x.name` or `name`. The qualifier is empty when there is none, or
when it is not a plain identifier; both parts are empty for any other expression. -/
def Expr.qualifiedName : Expr → String × String
  | .selector _ (.ident _ qualifier) name => (qualifier, name)
  | .selector _ _ name => ("", name)
  | .ident _ name => ("", name)
  | _ => ("", "")

/-- The qualified name behind one pointer star, or of a selector; both parts are empty for any other
type. -/
def Expr.pointedName : Expr → String × String
  | .star _ inner => inner.qualifiedName
  | .selector span operand name => (Expr.selector span operand name).qualifiedName
  | _ => ("", "")

/-- An imported package, with the local name it is given, `.` and `_` included. -/
structure Import where
  name : Option String
  path : String
deriving Repr, DecidableEq, Inhabited

/-- A declared function, or a method if it has a receiver list. The body is absent for an external
function. -/
structure FuncDecl where
  name : String
  receiver : Option (List Field)
  params : List Field
  results : List Field
  body : Option (List Stmt)
  span : Span

/-- A source file: its path, its text, and what was read from it. -/
structure SourceFile where
  path : String
  source : String
  imports : List Import
  decls : List FuncDecl

end StepChart.Syntax
