/-!
# Categories of Go syntax

The constructs a Go source is made of. The last ones stand for repetitions: what may come, any number
of times, after or between the parts of a construct.
-/

namespace StepChart.Go

/-- A kind of construct. -/
inductive Category where
  | file | packageClause | importDecl | importSpec | importList
  | constDecl | constSpec | varDecl | varSpec | funcDecl | methodDecl
  | typeParams | typeParam | params | param | variadicParam
  | aliasSpec | typeDecl | typeSpec | exprList
  | parenType | simpleType | genericType | typeArgs | pointerType | arrayType | countedType | sliceType
  | structType | tildeType | fieldList | fieldDecl | interfaceType | methodElem | typeElem
  | mapType | chanType | funcType
  | block | stmtList | stmt | emptyStmt | simpleStmt | exprStmt | send | receive | inc | dec | assign | define
  | labeled | lastLabel | fallthroughStmt | breakStmt | continueStmt | gotoStmt
  | returnStmt | goStmt | deferStmt
  | ifStmt | forStmt | forClause | rangeClause | switchStmt | exprCase | defaultCase
  | typeSwitch | typeSwitchHead | typeCase | selectStmt | commCase
  | expr | parenExpr | call | variadicArg | typedArgs | args | selector | index | slice
  | assertion | conversion | instantiation | composite | literalValue | literalElement | keyedElement
  | funcLiteral | unary | binary | qualifiedType
  | topLevels | moreImports | constSpecs | moreNames | varSpecs | moreTypeParams | moreParams | typeSpecs
  | moreExprs | moreTypeElems | moreFields | moreMembers | moreUnion | moreStmts | exprCases | typeCases
  | moreTypes | commCases | moreArgs | moreElements
deriving Repr, DecidableEq, Hashable, Inhabited

/-- The construct is a repetition. -/
def Category.repeats : Category → Bool
  | .topLevels | .moreImports | .constSpecs | .moreNames | .varSpecs | .moreTypeParams | .moreParams
  | .typeSpecs | .moreExprs | .moreTypeElems | .moreFields | .moreMembers | .moreUnion | .moreStmts
  | .exprCases | .typeCases | .moreTypes | .commCases | .moreArgs | .moreElements => true
  | _ => false

end StepChart.Go
