import StepChart.Go.Node

/-!
# Lowering

What the nodes of a source text are in its syntax tree. The same node can be asked for as an expression, a
type, a statement and more, so a node is lowered to all of these at once, and each rule picks from what
the parts of a construct were lowered to: the named parts one after the other, the named parts without a
role, or the parts with a role. Comments are named, but no rule may take one for a part.

Every expression lies in the place of the construct it was made for; types that only say what a value
looks like are `Expr.other`.
-/

namespace StepChart.Go

open Syntax

/-- What a node is. -/
inductive NodeKind where
  | comment
  | leaf (kind : LeafKind)
  | construct (category : Category)
deriving Repr, DecidableEq, Inhabited

/-- A node is more than a mark or a word of the construct around it. -/
def NodeKind.isNamed : NodeKind → Bool
  | .leaf .sign => false
  | _ => true

/-- A node with what it is lowered to. Most nodes are nothing but expressions that have no meaning for the
analysis. -/
structure Lowered where
  role : Option Role := none
  kind : NodeKind
  span : Span
  /-- The text of a token. -/
  text? : Option String := none
  expr : Expr := .other span
  type : Expr := .other span
  /-- The named parts as expressions. -/
  elements : List Expr := []
  /-- The named parts of a list, or the node itself, as expressions. -/
  exprs : List Expr := [.other span]
  stmt : Stmt := .empty
  stmts : List Stmt := []
  /-- A parameter or result. -/
  field? : Option Field := none
  fields : List Field := []
  /-- A clause of a statement that chooses among communications or, otherwise, values or types. -/
  clause? : (communicates : Bool) → Option Stmt := fun _ => none
  spec : ValueSpec := .mk [] []
  /-- The name that the node declares. -/
  name : String := ""
  imports : List Import := []
  decls : List FuncDecl := []

/-! ## Picking parts -/

section Parts

variable (parts : List Lowered)

/-- The named parts that are not comments. -/
def namedParts : List Lowered :=
  parts.filter fun part => part.kind.isNamed && part.kind != .comment

/-- The named parts that are not comments and have no role. -/
def unassignedParts : List Lowered :=
  parts.filter fun part => part.kind.isNamed && part.kind != .comment && part.role.isNone

/-- The first part with a role. -/
def partIn? (role : Role) : Option Lowered :=
  parts.find? (·.role = some role)

/-- The parts with a role. -/
def partsIn (role : Role) : List Lowered :=
  parts.filter (·.role = some role)

/-- The text of the token with a role. -/
def textIn? (role : Role) : Option String :=
  (partIn? parts role).bind (·.text?)

/-- The text of the token with a role. -/
def textIn (role : Role) : String :=
  (textIn? parts role).getD ""

/-- The part with a role as an expression. -/
def exprIn (span : Span) (role : Role) : Expr :=
  (partIn? parts role).elim (.other span) (·.expr)

/-- The part with a role as a type. -/
def typeIn (span : Span) (role : Role) : Expr :=
  (partIn? parts role).elim (.other span) (·.type)

/-- The part with a role as a list of expressions. -/
def exprsIn (role : Role) : List Expr :=
  (partIn? parts role).elim [] (·.exprs)

/-- The elements of the part with a role. -/
def elementsIn (role : Role) : List Expr :=
  (partIn? parts role).elim [] (·.elements)

/-- The statements of the part with a role. -/
def stmtsIn (role : Role) : List Stmt :=
  (partIn? parts role).elim [] (·.stmts)

/-- The parameters in the part with a role. -/
def fieldsIn (role : Role) : List Field :=
  (partIn? parts role).elim [] (·.fields)

/-- The texts of the tokens with a role. -/
def textsIn (role : Role) : List String :=
  (partsIn parts role).filterMap (·.text?)

/-! ## Types and parameters -/

/-- A construct as a type. -/
def typeOf (category : Category) (span : Span) : Expr :=
  match category with
  | .qualifiedType =>
    (textIn? parts .package).elim (.other span) fun package => .selector span (.ident span package) (textIn parts .name)
  | .pointerType => (namedParts parts).head?.elim (.other span) fun inner => .star span inner.type
  | .parenType => (namedParts parts).head?.elim (.other span) fun inner => .paren span inner.type
  | .genericType => (partIn? parts .type).elim (.other span) fun base => .index span base.type (.other span)
  | _ => .other span

/-- A parameter or result. -/
def fieldOf? (category : Category) (span : Span) : Option Field :=
  match category with
  | .param => some (.mk (textsIn parts .name) (typeIn parts span .type) false)
  | .variadicParam => some (.mk (textsIn parts .name) (typeIn parts span .type) true)
  | _ => none

/-- The parameters in a list. -/
def fieldsOf : List Field :=
  (namedParts parts).filterMap (·.field?)

/-- What a function returns; a result that is only a type has no name. -/
def resultsOf : List Field :=
  (partIn? parts .result).elim [] fun result =>
    if result.kind = .construct .params then result.fields else [.mk [] result.type false]

/-! ## Expressions -/

/-- The named parts as expressions. -/
def elementsOf : List Expr :=
  (namedParts parts).map (·.expr)

/-- The first named part as an expression. -/
def firstExpr (span : Span) : Expr :=
  (namedParts parts).head?.elim (.other span) (·.expr)

/-- A key and its value. -/
def keyValueOf (span : Span) : Expr :=
  match namedParts parts with
  | key :: value :: _ => .keyValue span key.expr value.expr
  | _ => .other span

/-- An operation with one operand. -/
def unaryOf (span : Span) : Expr :=
  let operand := exprIn parts span .operand
  let token := textIn parts .operator
  if token = "*" then .star span operand
  else (UnaryOp.ofToken? token).elim (.other span) fun op => .unary span op operand

/-- A construct as an expression. -/
def exprOf (category : Category) (span : Span) : Expr :=
  match category with
  | .selector => .selector span (exprIn parts span .operand) (textIn parts .field)
  | .call => .call span (exprIn parts span .function) (elementsIn parts .arguments)
  | .conversion => .call span (typeIn parts span .type) [exprIn parts span .operand]
  | .composite => .composite span ((partIn? parts .type).map (·.type)) (elementsIn parts .body)
  | .literalValue => .composite span none (elementsOf parts)
  | .literalElement | .variadicArg => firstExpr parts span
  | .keyedElement => keyValueOf parts span
  | .unary => unaryOf parts span
  | .binary => .binary span (textIn parts .operator) (exprIn parts span .left) (exprIn parts span .right)
  | .parenExpr => .paren span (firstExpr parts span)
  | .index => .index span (exprIn parts span .operand) (exprIn parts span .index)
  | .slice => .slice span (exprIn parts span .operand)
  | .assertion => .typeAssert span (exprIn parts span .operand) ((partIn? parts .type).map (·.type))
  | .funcLiteral => .func span (fieldsIn parts .parameters) (resultsOf parts) (stmtsIn parts .body)
  | .qualifiedType | .pointerType | .genericType | .parenType => typeOf parts category span
  | _ => .other span

/-- A construct as a list of expressions. -/
def exprsOf (category : Category) (span : Span) : List Expr :=
  if category = .exprList then elementsOf parts else [exprOf parts category span]

/-! ## Statements -/

/-- The statements of a block or a clause; a list of statements is not one itself. -/
def stmtsOf : List Stmt :=
  (unassignedParts parts).flatMap fun part =>
    if part.kind = .construct .stmtList then part.stmts else [part.stmt]

/-- A statement made of the first named part. -/
def stmtOfFirst (make : Expr → Stmt) : Stmt :=
  (namedParts parts).head?.elim .empty fun part => make part.expr

/-- A statement in a communication clause that receives a value. -/
def receiveOf : Stmt :=
  let values := exprsIn parts .right
  match partIn? parts .left with
  | some targets => .assign targets.exprs values
  | none => values.head?.elim .empty .expr

/-- A loop. -/
def loopOf : Stmt :=
  let body := stmtsIn parts .body
  if (namedParts parts).any (·.kind = .construct .rangeClause) then .range body else .forLoop body

/-- The clauses of a statement. -/
def clausesOf (communicates : Bool) : List Stmt :=
  (namedParts parts).filterMap (·.clause? communicates)

/-- A clause. -/
def clauseOf? (category : Category) (communicates : Bool) : Option Stmt :=
  match category with
  | .exprCase => some (.caseClause (exprsIn parts .value) (stmtsOf parts))
  | .typeCase =>
    some (.caseClause (((partsIn parts .type).filter (·.kind.isNamed)).map (·.type)) (stmtsOf parts))
  | .commCase => some (.commClause ((partIn? parts .communication).map (·.stmt)) (stmtsOf parts))
  | .defaultCase => some (if communicates then .commClause none (stmtsOf parts) else .caseClause [] (stmtsOf parts))
  | _ => none

/-- Names that are declared together; the commas between the names of constants have their role. -/
def specOf : ValueSpec :=
  .mk (textsIn parts .name) (exprsIn parts .value)

/-- The specifications of a category among parts. -/
def specsOf (category : Category) : List ValueSpec :=
  ((namedParts parts).filter (·.kind = .construct category)).map (·.spec)

/-- The names of the types that are declared. -/
def typeNamesOf : List String :=
  ((namedParts parts).filter fun part =>
    part.kind = .construct .typeSpec || part.kind = .construct .aliasSpec).map (·.name)

/-- A construct as a statement. -/
def stmtOf (category : Category) (span : Span) : Stmt :=
  match category with
  | .block => .block (stmtsOf parts)
  | .exprStmt => stmtOfFirst parts .expr
  | .define | .assign => .assign (exprsIn parts .left) (exprsIn parts .right)
  | .receive => receiveOf parts
  | .send => .send (exprIn parts span .channel) (exprIn parts span .value)
  | .inc | .dec => stmtOfFirst parts .incDec
  | .returnStmt => .ret ((namedParts parts).head?.elim [] (·.exprs))
  | .goStmt => stmtOfFirst parts .go
  | .deferStmt => stmtOfFirst parts .defer
  | .ifStmt =>
    .ifElse (exprIn parts span .condition) (stmtsIn parts .consequence) ((partIn? parts .alternative).map (·.stmt))
  | .forStmt => loopOf parts
  | .switchStmt => .switch (clausesOf parts false)
  | .typeSwitch => .typeSwitch (clausesOf parts false)
  | .selectStmt => .select (clausesOf parts true)
  | .labeled | .lastLabel => .labeled (textIn parts .label) ((unassignedParts parts).head?.elim .empty (·.stmt))
  | .breakStmt => .branch .break
  | .continueStmt => .branch .continue
  | .gotoStmt => .branch .goto
  | .fallthroughStmt => .branch .fallthrough
  | .varDecl => .varDecl (specsOf parts .varSpec)
  | .constDecl => .constDecl (specsOf parts .constSpec)
  | .typeDecl => .typeDecl (typeNamesOf parts)
  | _ => .empty

/-! ## Declarations -/

/-- The text between quotes. -/
def unquoted (text : String) : String :=
  String.ofList (text.toList.drop 1).dropLast

/-- The packages that are imported. -/
def importsOf (category : Category) : List Import :=
  match category with
  | .importSpec => [⟨textIn? parts .name, unquoted (textIn parts .path)⟩]
  | .importDecl | .importList | .file => (namedParts parts).flatMap (·.imports)
  | _ => []

/-- The functions and methods that are declared. -/
def declsOf (category : Category) (span : Span) : List FuncDecl :=
  match category with
  | .funcDecl | .methodDecl =>
    [{ name := textIn parts .name
       receiver := (partIn? parts .receiver).map (·.fields)
       params := fieldsIn parts .parameters
       results := resultsOf parts
       body := (partIn? parts .body).map (·.stmts)
       span }]
  | .file => (namedParts parts).flatMap (·.decls)
  | _ => []

end Parts

/-! ## All nodes -/

/-- What a construct is lowered to. -/
def Lowered.ofConstruct (role : Option Role) (category : Category) (span : Span) (parts : List Lowered) : Lowered where
  role := role
  kind := .construct category
  span := span
  expr := exprOf parts category span
  type := typeOf parts category span
  elements := elementsOf parts
  exprs := exprsOf parts category span
  stmt := stmtOf parts category span
  stmts := stmtsOf parts
  field? := fieldOf? parts category span
  fields := fieldsOf parts
  clause? := clauseOf? parts category
  spec := specOf parts
  name := textIn parts .name
  imports := importsOf parts category
  decls := declsOf parts category span

/-- What a token is lowered to. -/
def Lowered.ofLeaf (role : Option Role) (kind : LeafKind) (text : String) (span : Span) : Lowered :=
  let whole : Lowered := { role, kind := .leaf kind, span, text? := some text }
  match kind with
  | .name => { whole with expr := .ident span text, type := .ident span text, exprs := [.ident span text] }
  | .literal => { whole with expr := .literal span text, exprs := [.literal span text] }
  | .sign => whole

namespace SyntaxNode

mutual

/-- What a node is lowered to. -/
def lower : SyntaxNode → Lowered
  | .comment _ span => { kind := .comment, span }
  | .leaf role kind text span => .ofLeaf role kind text span
  | .construct role category span parts => .ofConstruct role category span (lowerAll parts)

/-- What nodes are lowered to. -/
def lowerAll : List SyntaxNode → List Lowered
  | [] => []
  | node :: nodes => node.lower :: lowerAll nodes

end

end SyntaxNode

end StepChart.Go
