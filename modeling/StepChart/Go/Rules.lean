import StepChart.Go.Category
import StepChart.Grammar.Rule

/-!
# The grammar of Go

The shapes of all constructs. Many texts fit several of them: `f(x)` is a call and a conversion,
`a[i]` an indexed value and a type with an argument, `x` an expression and a type. Ranks settle what
can be settled on sight; the weights make the reading as a value win over the reading as a type, and
a type with arguments over either.
-/

namespace StepChart.Go

open Grammar Grammar.Shape

namespace Rules

/-- A name. -/
def name : Shape Category := terminal .name

/-- A string. -/
def string : Shape Category := terminal .string

/-- What ends a statement: a line break, a semicolon or a null character. -/
def terminator : Shape Category :=
  oneOf [terminal .newline, mark ";", mark "\x00"]

/-- One of several marks. -/
def oneMark (texts : List String) : Shape Category :=
  oneOf (texts.map mark)

/-- One of several words. -/
def oneWord (texts : List String) : Shape Category :=
  oneOf (texts.map word)

/-- A repetition that may be left out. -/
def several (repetition : Category) : Shape Category :=
  optional (part repetition)

/-- A first shape and a repetition of others. -/
def listOf (first : Shape Category) (more : Category) : Shape Category :=
  inOrder [first, several more]

/-- Names between commas. -/
def names : Shape Category := listOf name .moreNames

/-- A type. -/
def type : Shape Category :=
  oneOf [part .simpleType, part .parenType]

/-- What a function returns. -/
def result : Shape Category :=
  optional (oneOf [part .params, part .simpleType])

/-- A declaration that only the top level of a file has. -/
def topDecl : Shape Category :=
  oneOf ([.packageClause, .funcDecl, .methodDecl, .importDecl].map part)

/-- A parameter. -/
def parameter : Shape Category :=
  oneOf [part .param, part .variadicParam]

/-- A member of an interface. -/
def member : Shape Category :=
  oneOf [part .methodElem, part .typeElem]

/-- An argument of a call. -/
def argument : Shape Category :=
  oneOf [part .expr, part .variadicArg]

/-- An element of a literal. -/
def element : Shape Category :=
  oneOf [part .literalElement, part .keyedElement]

/-- A binary operation. -/
def operation (operators : List String) : Shape Category :=
  inOrder [part .expr, oneMark operators, part .expr]

/-- The operators that bind as multiplication does. -/
def products : List String := ["*", "/", "%", "<<", ">>", "&", "&^"]

/-- The operators that bind as addition does. -/
def sums : List String := ["+", "-", "|", "^"]

/-- The operators that compare. -/
def comparisons : List String := ["==", "!=", "<", "<=", ">", ">="]

/-- A construct that groups to the left. -/
def leftward (rank : Int) (shape : Shape Category) : Shape Category :=
  grouped .left (ranked rank shape)

/-- A construct that groups to the right. -/
def rightward (rank : Int) (shape : Shape Category) : Shape Category :=
  grouped .right (ranked rank shape)

/-- Declares one thing, or several in parentheses. -/
def declaration (keyword : String) (specs : List Category) (more : Category) : Shape Category :=
  inOrder [word keyword, oneOf (specs.map part ++ [inOrder [mark "(", several more, mark ")"]])]

/-- The clauses of a statement in braces. -/
def clauses (cases : Category) : Shape Category :=
  inOrder [mark "\x7b", several cases, mark "\x7d"]

/-- A clause and its statements. -/
def clause (start : Shape Category) : Shape Category :=
  inOrder [start, mark ":", optional (part .stmtList)]

/-- A simple statement before the condition of a compound one. -/
def setup : Shape Category :=
  optional (inOrder [part .simpleStmt, mark ";"])

/-- Targets and a mark that assigns to them. -/
def targets (marks : List String) : Shape Category :=
  optional (inOrder [part .exprList, oneMark marks])

/-! ## Files and declarations -/

/-- The shapes of files and declarations. -/
def declarations : List (Category × Shape Category) :=
  [(.file, inOrder [several .topLevels, optional topDecl]),
   (.packageClause, inOrder [word "package", name]),
   (.importDecl, inOrder [word "import", oneOf [part .importSpec, part .importList]]),
   (.importSpec, inOrder [optional (oneOf [mark ".", name]), string]),
   (.importList, inOrder [mark "(",
     optional (inOrder [listOf (part .importSpec) .moreImports, optional terminator]), mark ")"]),
   (.constDecl, declaration "const" [.constSpec] .constSpecs),
   (.constSpec, leftward 0 (inOrder [names, optional (inOrder [optional type, mark "=", part .exprList])])),
   (.varDecl, declaration "var" [.varSpec] .varSpecs),
   (.varSpec, inOrder [names,
     oneOf
       [inOrder [type, optional (inOrder [mark "=", part .exprList])],
        inOrder [mark "=", part .exprList]]]),
   (.funcDecl, rightward 1 (inOrder
     [word "func", name, optional (part .typeParams), part .params, result, optional (part .block)])),
   (.methodDecl, rightward 1 (inOrder
     [word "func", part .params, name, part .params, result, optional (part .block)])),
   (.typeParams, inOrder [mark "[", listOf (part .typeParam) .moreTypeParams, optional (mark ","), mark "]"]),
   (.typeParam, inOrder [names, part .typeElem]),
   (.params, inOrder [mark "(",
     optional (inOrder [optional (listOf parameter .moreParams), optional (mark ",")]), mark ")"]),
   (.param, inOrder [optional names, type]),
   (.variadicParam, inOrder [optional name, mark "...", type]),
   (.aliasSpec, inOrder [name, mark "=", type]),
   (.typeDecl, declaration "type" [.typeSpec, .aliasSpec] .typeSpecs),
   (.typeSpec, weighted 1 (inOrder [name, optional (part .typeParams), type])),
   (.exprList, listOf (part .expr) .moreExprs)]

/-! ## Types -/

/-- The shapes of types. -/
def types : List (Category × Shape Category) :=
  [(.parenType, inOrder [mark "(", type, mark ")"]),
   (.simpleType, oneOf (weighted (-1) name :: [.genericType, .qualifiedType, .pointerType, .structType,
     .interfaceType, .arrayType, .sliceType, .mapType, .chanType, .funcType, .tildeType].map part)),
   (.genericType, weighted 1 (oneOf
     [inOrder [name, part .typeArgs],
      leftward 0 (inOrder [oneOf [part .qualifiedType, part .tildeType], part .typeArgs])])),
   (.typeArgs, weighted 2 (inOrder
     [mark "[", listOf (part .typeElem) .moreTypeElems, optional (mark ","), mark "]"])),
   (.pointerType, ranked 6 (inOrder [mark "*", type])),
   (.arrayType, rightward 0 (inOrder [mark "[", part .expr, mark "]", type])),
   (.countedType, inOrder [mark "[", mark "...", mark "]", type]),
   (.sliceType, rightward 0 (inOrder [mark "[", mark "]", type])),
   (.structType, inOrder [word "struct", part .fieldList]),
   (.tildeType, leftward 0 (inOrder [mark "~", type])),
   (.fieldList, inOrder [mark "\x7b",
     optional (inOrder [listOf (part .fieldDecl) .moreFields, optional terminator]), mark "\x7d"]),
   (.fieldDecl, inOrder
     [oneOf [inOrder [names, type],
       inOrder [optional (mark "*"), oneOf [name, part .qualifiedType, part .genericType]]],
      optional string]),
   (.interfaceType, inOrder [word "interface", mark "\x7b",
     optional (inOrder [listOf member .moreMembers, optional terminator]), mark "\x7d"]),
   (.methodElem, inOrder [name, part .params, result]),
   (.typeElem, listOf type .moreUnion),
   (.mapType, rightward 0 (inOrder [word "map", mark "[", type, mark "]", type])),
   (.chanType, leftward 0 (oneOf
     [inOrder [word "chan", type], inOrder [word "chan", mark "<-", type],
      ranked 6 (inOrder [mark "<-", word "chan", type])])),
   (.funcType, rightward 0 (inOrder [word "func", part .params, result]))]

/-! ## Statements -/

/-- The shapes of statements. -/
def statements : List (Category × Shape Category) :=
  [(.block, inOrder [mark "\x7b", optional (part .stmtList), mark "\x7d"]),
   (.stmtList, oneOf
     [inOrder [listOf (part .stmt) .moreStmts, optional (inOrder [terminator, optional (part .lastLabel)])],
      part .lastLabel]),
   (.stmt, oneOf ([.constDecl, .typeDecl, .varDecl, .simpleStmt, .returnStmt, .goStmt, .deferStmt, .ifStmt,
     .forStmt, .switchStmt, .typeSwitch, .selectStmt, .labeled, .fallthroughStmt, .breakStmt, .continueStmt,
     .gotoStmt, .block, .emptyStmt].map part)),
   (.emptyStmt, mark ";"),
   (.simpleStmt, oneOf ([.exprStmt, .send, .inc, .dec, .assign, .define].map part)),
   (.exprStmt, part .expr),
   (.send, inOrder [part .expr, mark "<-", part .expr]),
   (.receive, inOrder [targets ["=", ":="], part .expr]),
   (.inc, inOrder [part .expr, mark "++"]),
   (.dec, inOrder [part .expr, mark "--"]),
   (.assign, inOrder [part .exprList, oneMark ((products ++ sums).map (· ++ "=") ++ ["="]), part .exprList]),
   (.define, inOrder [part .exprList, mark ":=", part .exprList]),
   (.labeled, inOrder [name, mark ":", part .stmt]),
   (.lastLabel, inOrder [name, mark ":"]),
   (.fallthroughStmt, leftward 0 (word "fallthrough")),
   (.breakStmt, inOrder [word "break", optional name]),
   (.continueStmt, inOrder [word "continue", optional name]),
   (.gotoStmt, inOrder [word "goto", name]),
   (.returnStmt, inOrder [word "return", optional (part .exprList)]),
   (.goStmt, inOrder [word "go", part .expr]),
   (.deferStmt, inOrder [word "defer", part .expr]),
   (.ifStmt, inOrder [word "if", setup, part .expr, part .block,
     optional (inOrder [word "else", oneOf [part .block, part .ifStmt]])]),
   (.forStmt, inOrder
     [word "for", optional (oneOf ([.expr, .forClause, .rangeClause].map part)), part .block]),
   (.forClause, inOrder
     [optional (part .simpleStmt), mark ";", optional (part .expr), mark ";", optional (part .simpleStmt)]),
   (.rangeClause, inOrder [targets ["=", ":="], word "range", part .expr]),
   (.switchStmt, inOrder [word "switch", setup, optional (part .expr), clauses .exprCases]),
   (.exprCase, clause (inOrder [word "case", part .exprList])),
   (.defaultCase, clause (word "default")),
   (.typeSwitch, inOrder [word "switch", part .typeSwitchHead, clauses .typeCases]),
   (.typeSwitchHead, inOrder
     [setup, targets [":="], part .expr, mark ".", mark "(", word "type", mark ")"]),
   (.typeCase, clause (inOrder [word "case", listOf type .moreTypes])),
   (.selectStmt, inOrder [word "select", clauses .commCases]),
   (.commCase, clause (inOrder [word "case", oneOf [part .send, part .receive]]))]

/-! ## Expressions -/

/-- The shapes of expressions. -/
def expressions : List (Category × Shape Category) :=
  [(.expr, oneOf
     [oneOf ([.unary, .binary, .selector, .index, .slice, .call, .assertion, .conversion,
        .instantiation].map part),
      name, oneWord ["new", "make"], part .composite, part .funcLiteral,
      string, terminal .number, terminal .rune, oneWord ["nil", "true", "false", "iota"], part .parenExpr]),
   (.parenExpr, inOrder [mark "(", part .expr, mark ")"]),
   (.call, ranked 7 (oneOf
     [inOrder [oneWord ["new", "make"], part .typedArgs],
      inOrder [part .expr, optional (part .typeArgs), part .args]])),
   (.variadicArg, rightward 0 (inOrder [part .expr, mark "..."])),
   (.typedArgs, inOrder
     [mark "(", optional (inOrder [listOf type .moreExprs, optional (mark ",")]), mark ")"]),
   (.args, inOrder
     [mark "(", optional (inOrder [listOf argument .moreArgs, optional (mark ",")]), mark ")"]),
   (.selector, ranked 7 (inOrder [part .expr, mark ".", name])),
   (.index, ranked 7 (inOrder [part .expr, mark "[", part .expr, mark "]"])),
   (.slice, ranked 7 (inOrder [part .expr, mark "[",
     oneOf
       [inOrder [optional (part .expr), mark ":", optional (part .expr)],
        inOrder [optional (part .expr), mark ":", part .expr, mark ":", part .expr]],
     mark "]"])),
   (.assertion, ranked 7 (inOrder [part .expr, mark ".", mark "(", type, mark ")"])),
   (.conversion, weighted (-1) (inOrder [type, mark "(", part .expr, optional (mark ","), mark ")"])),
   (.instantiation, weighted (-1) (inOrder
     [type, mark "[", listOf type .moreTypes, optional (mark ","), mark "]"])),
   (.composite, ranked (-1) (inOrder
     [oneOf [part .mapType, part .sliceType, part .arrayType, part .countedType, part .structType, name,
       part .genericType, part .qualifiedType],
      part .literalValue])),
   (.literalValue, inOrder [mark "\x7b",
     optional (inOrder [optional (listOf element .moreElements), optional (mark ",")]), mark "\x7d"]),
   (.literalElement, oneOf [part .expr, part .literalValue]),
   (.keyedElement, inOrder [part .literalElement, mark ":", part .literalElement]),
   (.funcLiteral, inOrder [word "func", part .params, result, part .block]),
   (.unary, ranked 6 (inOrder [oneMark ["+", "-", "!", "^", "*", "&", "<-"], part .expr])),
   (.binary, oneOf
     [leftward 5 (operation products), leftward 4 (operation sums), leftward 3 (operation comparisons),
      leftward 2 (operation ["&&"]), leftward 1 (operation ["||"])]),
   (.qualifiedType, inOrder [name, mark ".", name])]

/-! ## Repetitions -/

/-- A shape after a comma. -/
def another (shape : Shape Category) : Shape Category :=
  inOrder [mark ",", shape]

/-- A shape after a terminator. -/
def nextOf (shape : Shape Category) : Shape Category :=
  inOrder [terminator, shape]

/-- A shape before a terminator. -/
def ended (shape : Shape Category) : Shape Category :=
  inOrder [shape, terminator]

/-- What is repeated. -/
def repetitions : List (Category × Shape Category) :=
  [(.topLevels, oneOf [ended (part .stmt), ended topDecl]),
   (.moreImports, nextOf (part .importSpec)),
   (.constSpecs, ended (part .constSpec)),
   (.moreNames, another name),
   (.varSpecs, ended (part .varSpec)),
   (.moreTypeParams, another (part .typeParam)),
   (.moreParams, another parameter),
   (.typeSpecs, ended (oneOf [part .typeSpec, part .aliasSpec])),
   (.moreExprs, another (part .expr)),
   (.moreTypeElems, another (part .typeElem)),
   (.moreFields, nextOf (part .fieldDecl)),
   (.moreMembers, nextOf member),
   (.moreUnion, inOrder [mark "|", type]),
   (.moreStmts, nextOf (part .stmt)),
   (.exprCases, oneOf [part .exprCase, part .defaultCase]),
   (.typeCases, oneOf [part .typeCase, part .defaultCase]),
   (.moreTypes, another type),
   (.commCases, oneOf [part .commCase, part .defaultCase]),
   (.moreArgs, another argument),
   (.moreElements, another element)]

end Rules

/-- The grammar of Go. -/
def grammar : Grammar Category :=
  (Rules.declarations ++ Rules.types ++ Rules.statements ++ Rules.expressions ++ Rules.repetitions).map
    fun (category, shape) => { category, repeats := category.repeats, shape }

end StepChart.Go
