import StepChart.Go.Category
import StepChart.Go.Lexeme
import StepChart.Reading.Tree

/-!
# The nodes of a source text

A source text as it is lowered: a tree of tokens, constructs and comments. A construct that only stands
for another one, or for several in a row, has no node of its own; its parts stand in its place. A part
may have a role in its construct. A comment may stand between any two parts of a construct and has no
role in it.
-/

namespace StepChart.Go

open Grammar Syntax

/-- What a part can be to its construct. -/
inductive Role where
  | name | path | type | value | receiver | parameters | result | body | package
  | left | right | channel | condition | consequence | alternative | communication | label
  | function | arguments | operand | field | index | operator
deriving Repr, DecidableEq, Inhabited

/-- The classes of tokens: names, literals, and the marks and words that construct the rest. -/
inductive LeafKind where
  | name | literal | sign
deriving Repr, DecidableEq, Inhabited

/-- A comment, a token or a construct. -/
inductive SyntaxNode where
  | comment (text : String) (span : Span)
  | leaf (role : Option Role) (kind : LeafKind) (text : String) (span : Span)
  | construct (role : Option Role) (category : Category) (span : Span) (parts : List SyntaxNode)
deriving Repr, Inhabited

/-- The place of a node. -/
def SyntaxNode.span : SyntaxNode → Span
  | .comment _ span | .leaf _ _ _ span | .construct _ _ span _ => span

/-! ## Nodes of constructs -/

/-- The construct has no node of its own. -/
def Category.isHidden (category : Category) : Bool :=
  category.repeats || [.expr, .simpleType, .stmt, .simpleStmt, .typeSwitchHead].contains category

/-- The class of a terminal. Some words are names that every text knows. -/
def LeafKind.of : Terminal → LeafKind
  | .name => .name
  | .number | .rune | .string => .literal
  | .word text => if ["nil", "true", "false", "iota", "new", "make"].contains text then .name else .sign
  | .finish | .newline | .mark _ => .sign

/-- The role of a part, given the number of parts of the same symbol before it. -/
def roleOf (category : Category) (symbol : Symbol Category) (before : Nat) : Option Role :=
  match category, symbol with
  | .importSpec, .terminal .string => some .path
  | .importSpec, _ => some .name
  | .constSpec, .terminal .name | .constSpec, .category .moreNames | .varSpec, .terminal .name
  | .param, .terminal .name | .variadicParam, .terminal .name | .moreNames, .terminal .name
  | .typeSpec, .terminal .name | .aliasSpec, .terminal .name
  | .funcDecl, .terminal .name | .methodDecl, .terminal .name => some .name
  | .constSpec, .category .exprList | .varSpec, .category .exprList | .exprCase, .category .exprList => some .value
  | .param, .category .simpleType | .param, .category .parenType | .variadicParam, .category .simpleType
  | .variadicParam, .category .parenType | .typeCase, .category .simpleType | .typeCase, .category .parenType
  | .typeCase, .category .moreTypes | .assertion, .category .simpleType | .assertion, .category .parenType
  | .conversion, .category .simpleType | .conversion, .category .parenType => some .type
  | .funcDecl, .category .params | .funcLiteral, .category .params => [.parameters, .result][before]?
  | .methodDecl, .category .params => [.receiver, .parameters, .result][before]?
  | .funcDecl, .category .simpleType | .methodDecl, .category .simpleType
  | .funcLiteral, .category .simpleType => some .result
  | .funcDecl, .category .block | .methodDecl, .category .block | .funcLiteral, .category .block
  | .forStmt, .category .block => some .body
  | .qualifiedType, .terminal .name => [.package, .name][before]?
  | .genericType, .category .typeArgs => none
  | .genericType, _ => some .type
  | .commCase, .category .send | .commCase, .category .receive => some .communication
  | .assign, .category .exprList | .define, .category .exprList | .binary, .category .expr => [.left, .right][before]?
  | .receive, .category .exprList => some .left
  | .receive, .category .expr => some .right
  | .send, .category .expr => [.channel, .value][before]?
  | .ifStmt, .category .expr => some .condition
  | .ifStmt, .category .block => [.consequence, .alternative][before]?
  | .ifStmt, .category .ifStmt => some .alternative
  | .labeled, .terminal .name | .lastLabel, .terminal .name => some .label
  | .call, .category .expr => some .function
  | .call, .category .args | .call, .category .typedArgs => some .arguments
  | .call, .terminal _ => some .function
  | .selector, .category .expr | .assertion, .category .expr | .conversion, .category .expr
  | .unary, .category .expr => some .operand
  | .selector, .terminal .name => some .field
  | .index, .category .expr => [.operand, .index][before]?
  | .slice, .category .expr => [.operand][before]?
  | .composite, .category .literalValue => some .body
  | .composite, _ => some .type
  | .unary, .terminal _ | .binary, .terminal _ => some .operator
  | _, _ => none

mutual

/-- The nodes that a tree with a role stands for. -/
def nodesOf (role : Option Role) : Reading.Tree Category → List SyntaxNode
  | .leaf terminal text span => [.leaf role (.of terminal) text span]
  | .node category span parts =>
    if category.isHidden then nodesOfParts category role [] parts
    else [.construct role category span (nodesOfParts category none [] parts)]

/-- The nodes that the parts of a construct stand for, after those with the symbols `before`. A part without
a role has the one that is `inherited` from the construct. -/
def nodesOfParts (category : Category) (inherited : Option Role) (before : List (Symbol Category)) :
    List (Reading.Tree Category) → List SyntaxNode
  | [] => []
  | part :: parts =>
    nodesOf (roleOf category part.symbol (before.count part.symbol) <|> inherited) part
      ++ nodesOfParts category inherited (part.symbol :: before) parts

end

/-- The node of a whole text. -/
def fileNode (tree : Reading.Tree Category) : SyntaxNode :=
  .construct none .file tree.span (nodesOfParts .file none [] tree.children)

/-! ## Comments -/

/-- The comments among lexemes. -/
def commentsOf (lexemes : List Lexeme) : List Lexeme :=
  lexemes.filter (·.kind = .comment)

namespace SyntaxNode

/-- The node of a comment. -/
def ofComment (comment : Lexeme) : SyntaxNode :=
  .comment comment.text comment.span

/-- A place begins before the end of a construct. -/
def reaches (place : Span) : SyntaxNode → Bool
  | .construct _ _ span _ => place.start < span.stop
  | _ => false

mutual

/-- Puts a comment among the parts of a construct. -/
def place (comment : Lexeme) : SyntaxNode → SyntaxNode
  | .construct role category span parts => .construct role category span (placeAmong comment parts)
  | node => node

/-- Puts a comment before the first node that begins after it, or into the construct it is in. -/
def placeAmong (comment : Lexeme) : List SyntaxNode → List SyntaxNode
  | [] => [ofComment comment]
  | node :: nodes =>
    if comment.span.stop ≤ node.span.start then ofComment comment :: node :: nodes
    else if node.reaches comment.span then node.place comment :: nodes
    else node :: placeAmong comment nodes

end

/-- The node with comments in their places. -/
def withComments (node : SyntaxNode) (comments : List Lexeme) : SyntaxNode :=
  comments.foldl (fun node comment => node.place comment) node

end SyntaxNode

end StepChart.Go
