import StepChart.Proofs.Go.NodeComments
import StepChart.Proofs.Reading.Placed
import StepChart.Proofs.Syntax.Inside

/-!
# Lowered nodes in their places

What a construct is lowered to is made of what its parts are lowered to, and of expressions with the span of the
construct. So if all expressions of the parts are inside the span of the construct, all expressions of the whole
are (`holds_ofConstruct`), and the nodes of a nested tree are lowered to declarations whose expressions are in their
places (`inside_fileNode`).
-/

namespace StepChart.Go

open Syntax Text

/-! ## Expressions of lowered nodes -/

/-- The test holds for all expressions that a node is lowered to, and the node is no token without a text.
Declarations are not looked at. -/
structure Lowered.All (test : Expr → Bool) (part : Lowered) : Prop where
  worded : ∀ text, part.text? = some text → text ≠ ""
  expr : part.expr.all test = true
  type : part.type.all test = true
  elements : exprsAll test part.elements = true
  exprs : exprsAll test part.exprs = true
  stmt : part.stmt.all test = true
  stmts : stmtsAll test part.stmts = true
  field : ∀ field, part.field? = some field → field.type.all test = true
  fields : fieldsAll test part.fields = true
  clause : ∀ communicates stmt, part.clause? communicates = some stmt → stmt.all test = true
  spec : exprsAll test part.spec.values = true

theorem Lowered.All.mono {test weaker : Expr → Bool} (implies : ∀ expr, test expr = true → weaker expr = true)
    {part : Lowered} (every : part.All test) : part.All weaker where
  worded := every.worded
  expr := part.expr.all_mono implies every.expr
  type := part.type.all_mono implies every.type
  elements := exprsAll_mono implies _ every.elements
  exprs := exprsAll_mono implies _ every.exprs
  stmt := part.stmt.all_mono implies every.stmt
  stmts := stmtsAll_mono implies _ every.stmts
  field field isField := field.type.all_mono implies (every.field field isField)
  fields := fieldsAll_mono implies _ every.fields
  clause communicates stmt isClause := stmt.all_mono implies (every.clause communicates stmt isClause)
  spec := exprsAll_mono implies _ every.spec

/-- All expressions of a lowered node are inside a span, and its declarations are in their places. -/
structure Lowered.Holds (source : String) (outer : Span) (part : Lowered) : Prop where
  all : part.All (Expr.isInside source outer)
  decls : ∀ decl ∈ part.decls, decl.Inside source

theorem Lowered.Holds.mono {source : String} {inner outer : Span} {part : Lowered} (holds : part.Holds source inner)
    (within : inner.Within outer) : part.Holds source outer :=
  ⟨holds.all.mono (@Expr.isInside_mono source outer inner within), holds.decls⟩

/-! ## Picked parts -/

section Parts

variable {test : Expr → Bool} {span : Span} {parts : List Lowered}

/-- What is asked of a part that was picked is good if it is good for every part, and what stands for it otherwise. -/
theorem elim_of_mem {α : Type} (good : α → Prop) {picked : Option Lowered} {view : Lowered → α} {default : α}
    (member : ∀ part, picked = some part → part ∈ parts) (each : ∀ part ∈ parts, good (view part))
    (otherwise : good default) : good (picked.elim default view) := by
  cases picked with
  | none => exact otherwise
  | some part => exact each part (member part rfl)

theorem mem_of_partIn? {role : Role} (part : Lowered) (found : partIn? parts role = some part) : part ∈ parts :=
  List.mem_of_find?_eq_some found

theorem mem_of_mem_namedParts {part : Lowered} (member : part ∈ namedParts parts) : part ∈ parts :=
  List.mem_of_mem_filter member

theorem mem_of_first (part : Lowered) (first : (namedParts parts).head? = some part) : part ∈ parts :=
  mem_of_mem_namedParts (List.mem_of_head? first)

theorem mem_of_firstUnassigned (part : Lowered) (first : (unassignedParts parts).head? = some part) : part ∈ parts :=
  List.mem_of_mem_filter (List.mem_of_head? first)

variable (every : ∀ part ∈ parts, part.All test)

include every

theorem all_exprsIn (role : Role) : exprsAll test (exprsIn parts role) = true :=
  elim_of_mem (exprsAll test · = true) mem_of_partIn? (fun part isPart => (every part isPart).exprs) rfl

theorem all_elementsIn (role : Role) : exprsAll test (elementsIn parts role) = true :=
  elim_of_mem (exprsAll test · = true) mem_of_partIn? (fun part isPart => (every part isPart).elements) rfl

theorem all_stmtsIn (role : Role) : stmtsAll test (stmtsIn parts role) = true :=
  elim_of_mem (stmtsAll test · = true) mem_of_partIn? (fun part isPart => (every part isPart).stmts) rfl

theorem all_fieldsIn (role : Role) : fieldsAll test (fieldsIn parts role) = true :=
  elim_of_mem (fieldsAll test · = true) mem_of_partIn? (fun part isPart => (every part isPart).fields) rfl

theorem all_typeIn? (role : Role) : exprAll? test ((partIn? parts role).map (·.type)) = true := by
  cases found : partIn? parts role with
  | none => rfl
  | some part => exact (every part (mem_of_partIn? part found)).type

theorem all_stmtIn? (role : Role) : stmtAll? test ((partIn? parts role).map (·.stmt)) = true := by
  cases found : partIn? parts role with
  | none => rfl
  | some part => exact (every part (mem_of_partIn? part found)).stmt

theorem all_resultsOf : fieldsAll test (resultsOf parts) = true := by
  refine elim_of_mem (fieldsAll test · = true) mem_of_partIn? (fun part isPart => ?_) rfl
  split
  · exact (every part isPart).fields
  · exact Bool.and_eq_true_iff.2 ⟨(every part isPart).type, rfl⟩

theorem all_fieldsOf : fieldsAll test (fieldsOf parts) = true :=
  fieldsAll_iff.2 <| List.forall_mem_filterMap.2 fun part isPart field isField =>
    (every part (mem_of_mem_namedParts isPart)).field field isField

theorem all_elementsOf : exprsAll test (elementsOf parts) = true :=
  exprsAll_iff.2 <| List.forall_mem_map.2 fun part isPart => (every part (mem_of_mem_namedParts isPart)).expr

theorem all_stmtsOf : stmtsAll test (stmtsOf parts) = true := by
  refine stmtsAll_iff.2 fun stmt isStmt => ?_
  obtain ⟨part, isPart, isStmt⟩ := List.mem_flatMap.1 isStmt
  have all := every part (List.mem_of_mem_filter isPart)
  split at isStmt
  · exact stmtsAll_iff.1 all.stmts stmt isStmt
  · rw [List.mem_singleton.1 isStmt]
    exact all.stmt

theorem all_stmtOfFirst {make : Expr → Stmt} (same : ∀ expr, (make expr).all test = expr.all test) :
    (stmtOfFirst parts make).all test = true :=
  elim_of_mem (Stmt.all test · = true) mem_of_first (fun part isPart => (same _).trans (every part isPart).expr) rfl

theorem all_receiveOf : (receiveOf parts).all test = true := by
  have values := all_exprsIn every .right
  unfold receiveOf
  dsimp only
  cases found : partIn? parts .left with
  | some targets => exact Bool.and_eq_true_iff.2 ⟨(every targets (mem_of_partIn? targets found)).exprs, values⟩
  | none =>
    cases received : exprsIn parts .right with
    | nil => rfl
    | cons value rest =>
      rw [received] at values
      exact exprsAll_iff.1 values value List.mem_cons_self

theorem all_loopOf : (loopOf parts).all test = true := by
  unfold loopOf
  dsimp only
  split <;> exact all_stmtsIn every .body

theorem all_clausesOf (communicates : Bool) : stmtsAll test (clausesOf parts communicates) = true :=
  stmtsAll_iff.2 <| List.forall_mem_filterMap.2 fun part isPart stmt isClause =>
    (every part (mem_of_mem_namedParts isPart)).clause communicates stmt isClause

theorem all_clauseOf? (category : Category) (communicates : Bool) (stmt : Stmt)
    (isClause : clauseOf? parts category communicates = some stmt) : stmt.all test = true := by
  have body := all_stmtsOf every
  unfold clauseOf? at isClause
  split at isClause
  · cases isClause
    exact Bool.and_eq_true_iff.2 ⟨all_exprsIn every .value, body⟩
  · cases isClause
    refine Bool.and_eq_true_iff.2 ⟨exprsAll_iff.2 (List.forall_mem_map.2 fun part isPart => ?_), body⟩
    exact (every part (List.mem_of_mem_filter (List.mem_of_mem_filter isPart))).type
  · cases isClause
    exact Bool.and_eq_true_iff.2 ⟨all_stmtIn? every .communication, body⟩
  · cases isClause
    split <;> exact body
  · cases isClause

theorem all_specsOf (category : Category) : specsAll test (specsOf parts category) = true :=
  specsAll_iff.2 <| List.forall_mem_map.2 fun part isPart =>
    (every part (mem_of_mem_namedParts (List.mem_of_mem_filter isPart))).spec

variable (other : (Expr.other span).all test = true)

include other

theorem all_exprIn (role : Role) : (exprIn parts span role).all test = true :=
  elim_of_mem (Expr.all test · = true) mem_of_partIn? (fun part isPart => (every part isPart).expr) other

theorem all_typeIn (role : Role) : (typeIn parts span role).all test = true :=
  elim_of_mem (Expr.all test · = true) mem_of_partIn? (fun part isPart => (every part isPart).type) other

theorem all_firstExpr : (firstExpr parts span).all test = true :=
  elim_of_mem (Expr.all test · = true) mem_of_first (fun part isPart => (every part isPart).expr) other

theorem all_fieldOf? (category : Category) (field : Field) (isField : fieldOf? parts category span = some field) :
    field.type.all test = true := by
  have type := all_typeIn every other .type
  unfold fieldOf? at isField
  split at isField
  · cases isField
    exact type
  · cases isField
    exact type
  · cases isField

theorem all_stmtOf (category : Category) : (stmtOf parts category span).all test = true := by
  have expr := all_exprIn every other
  have exprs := all_exprsIn every
  have both := @Bool.and_eq_true_iff
  cases category with
  | block => exact all_stmtsOf every
  | exprStmt | inc | dec | goStmt | deferStmt => exact all_stmtOfFirst every fun _ => rfl
  | define | assign => exact both.2 ⟨exprs .left, exprs .right⟩
  | receive => exact all_receiveOf every
  | send => exact both.2 ⟨expr .channel, expr .value⟩
  | returnStmt =>
    exact elim_of_mem (exprsAll test · = true) mem_of_first (fun part isPart => (every part isPart).exprs) rfl
  | ifStmt =>
    exact both.2 ⟨both.2 ⟨expr .condition, all_stmtsIn every .consequence⟩, all_stmtIn? every .alternative⟩
  | forStmt => exact all_loopOf every
  | switchStmt | typeSwitch => exact all_clausesOf every false
  | selectStmt => exact all_clausesOf every true
  | labeled | lastLabel =>
    exact elim_of_mem (Stmt.all test · = true) mem_of_firstUnassigned (fun part isPart => (every part isPart).stmt) rfl
  | varDecl => exact all_specsOf every .varSpec
  | constDecl => exact all_specsOf every .constSpec
  | _ => rfl

end Parts

/-! ## Constructs -/

section Constructs

variable {source : String} {span : Span} {parts : List Lowered} (isIn : span.isIn source = true)

include isIn

theorem all_other : (Expr.other span).all (Expr.isInside source span) = true := Expr.all_inside (.other span) isIn rfl rfl

variable (every : ∀ part ∈ parts, part.All (Expr.isInside source span))

include every

theorem all_typeOf (category : Category) : (typeOf parts category span).all (Expr.isInside source span) = true := by
  have other := all_other isIn
  cases category with
  | qualifiedType =>
    show (Option.elim (textIn? parts .package) (Expr.other span) _).all _ = true
    cases found : textIn? parts .package with
    | none => exact other
    | some package =>
      obtain ⟨part, isPart, isText⟩ := Option.bind_eq_some_iff.1 found
      have worded : (Expr.ident span package).isWorded = true :=
        bne_iff_ne.2 ((every part (mem_of_partIn? part isPart)).worded package isText)
      exact Expr.all_inside (.selector span (.ident span package) _) isIn rfl
        (Expr.all_inside (.ident span package) isIn worded rfl)
  | pointerType =>
    exact elim_of_mem (Expr.all _ · = true) mem_of_first
      (fun inner isPart => Expr.all_inside (.star span inner.type) isIn rfl (every inner isPart).type) other
  | parenType =>
    exact elim_of_mem (Expr.all _ · = true) mem_of_first
      (fun inner isPart => Expr.all_inside (.paren span inner.type) isIn rfl (every inner isPart).type) other
  | genericType =>
    refine elim_of_mem (Expr.all _ · = true) mem_of_partIn? (fun base isPart => ?_) other
    exact Expr.all_inside (.index span base.type (.other span)) isIn rfl
      (Bool.and_eq_true_iff.2 ⟨(every base isPart).type, other⟩)
  | _ => exact other

theorem all_keyValueOf : (keyValueOf parts span).all (Expr.isInside source span) = true := by
  unfold keyValueOf
  split
  · next key value rest isNamed =>
    have named : ∀ part ∈ key :: value :: rest, part.All (Expr.isInside source span) := by
      rw [← isNamed]
      exact fun part isPart => every part (mem_of_mem_namedParts isPart)
    exact Expr.all_inside (.keyValue span key.expr value.expr) isIn rfl
      (Bool.and_eq_true_iff.2 ⟨(named key (.head _)).expr, (named value (.tail _ (.head _))).expr⟩)
  · exact all_other isIn

theorem all_unaryOf : (unaryOf parts span).all (Expr.isInside source span) = true := by
  have operand := all_exprIn every (all_other isIn) .operand
  unfold unaryOf
  dsimp only
  split
  · exact Expr.all_inside (.star span _) isIn rfl operand
  · cases UnaryOp.ofToken? (textIn parts .operator) with
    | none => exact all_other isIn
    | some op => exact Expr.all_inside (.unary span op _) isIn rfl operand

theorem all_exprOf (category : Category) : (exprOf parts category span).all (Expr.isInside source span) = true := by
  have other := all_other isIn
  have expr := all_exprIn every other
  have elements := all_elementsIn every
  have both := @Bool.and_eq_true_iff
  cases category with
  | selector => exact Expr.all_inside (.selector span _ _) isIn rfl (expr .operand)
  | call => exact Expr.all_inside (.call span _ _) isIn rfl (both.2 ⟨expr .function, elements .arguments⟩)
  | conversion =>
    exact Expr.all_inside (.call span _ [_]) isIn rfl
      (both.2 ⟨all_typeIn every other .type, both.2 ⟨expr .operand, rfl⟩⟩)
  | composite =>
    exact Expr.all_inside (.composite span _ _) isIn rfl (both.2 ⟨all_typeIn? every .type, elements .body⟩)
  | literalValue => exact Expr.all_inside (.composite span none _) isIn rfl (all_elementsOf every)
  | literalElement | variadicArg => exact all_firstExpr every other
  | keyedElement => exact all_keyValueOf isIn every
  | unary => exact all_unaryOf isIn every
  | binary => exact Expr.all_inside (.binary span _ _ _) isIn rfl (both.2 ⟨expr .left, expr .right⟩)
  | parenExpr => exact Expr.all_inside (.paren span _) isIn rfl (all_firstExpr every other)
  | index => exact Expr.all_inside (.index span _ _) isIn rfl (both.2 ⟨expr .operand, expr .index⟩)
  | slice => exact Expr.all_inside (.slice span _) isIn rfl (expr .operand)
  | assertion =>
    exact Expr.all_inside (.typeAssert span _ _) isIn rfl (both.2 ⟨expr .operand, all_typeIn? every .type⟩)
  | funcLiteral =>
    exact Expr.all_inside (.func span _ _ _) isIn rfl
      (both.2 ⟨both.2 ⟨all_fieldsIn every .parameters, all_resultsOf every⟩, all_stmtsIn every .body⟩)
  | qualifiedType => exact all_typeOf isIn every .qualifiedType
  | pointerType => exact all_typeOf isIn every .pointerType
  | genericType => exact all_typeOf isIn every .genericType
  | parenType => exact all_typeOf isIn every .parenType
  | _ => exact other

theorem all_ofConstruct (role : Option Role) (category : Category) :
    (Lowered.ofConstruct role category span parts).All (Expr.isInside source span) where
  worded := nofun
  expr := all_exprOf isIn every category
  type := all_typeOf isIn every category
  elements := all_elementsOf every
  exprs := by
    show exprsAll _ (exprsOf parts category span) = true
    unfold exprsOf
    split
    · exact all_elementsOf every
    · exact Bool.and_eq_true_iff.2 ⟨all_exprOf isIn every category, rfl⟩
  stmt := all_stmtOf every (all_other isIn) category
  stmts := all_stmtsOf every
  field := all_fieldOf? every (all_other isIn) category
  fields := all_fieldsOf every
  clause := all_clauseOf? every category
  spec := all_exprsIn every .value

/-- A function is in its place if the expressions of its parts are inside its span. -/
theorem inside_function :
    FuncDecl.Inside source
      { name := textIn parts .name
        receiver := (partIn? parts .receiver).map (·.fields)
        params := fieldsIn parts .parameters
        results := resultsOf parts
        body := (partIn? parts .body).map (·.stmts)
        span } := by
  have both := @Bool.and_eq_true_iff
  have receiver := all_fieldsIn every .receiver
  have body := all_stmtsIn every .body
  unfold fieldsIn at receiver
  unfold stmtsIn at body
  refine ⟨isIn, both.2 ⟨both.2 ⟨both.2 ⟨?_, all_fieldsIn every .parameters⟩, all_resultsOf every⟩, ?_⟩⟩
  · generalize partIn? parts .receiver = found at receiver ⊢
    cases found <;> exact receiver
  · generalize partIn? parts .body = found at body ⊢
    cases found <;> exact body

omit every in
/-- **A construct is lowered to what is in its place if its parts are.** -/
theorem holds_ofConstruct (hold : ∀ part ∈ parts, part.Holds source span) (role : Option Role) (category : Category) :
    (Lowered.ofConstruct role category span parts).Holds source span := by
  have every : ∀ part ∈ parts, part.All (Expr.isInside source span) := fun part isPart => (hold part isPart).all
  refine ⟨all_ofConstruct isIn every role category, ?_⟩
  show ∀ decl ∈ declsOf parts category span, decl.Inside source
  cases category with
  | funcDecl | methodDecl =>
    intro decl isDecl
    rw [List.mem_singleton.1 isDecl]
    exact inside_function isIn every
  | file =>
    intro decl isDecl
    obtain ⟨part, isPart, isDecl⟩ := List.mem_flatMap.1 isDecl
    exact (hold part (mem_of_mem_namedParts isPart)).decls decl isDecl
  | _ => exact List.forall_mem_nil _

end Constructs

/-! ## Trees -/

section Trees

variable {source : String}

theorem holds_ofLeaf {role : Option Role} {kind : LeafKind} {text : String} {span : Span} (written : text ≠ "")
    (isIn : span.isIn source = true) : (Lowered.ofLeaf role kind text span).Holds source span := by
  have worded : (text != "") = true := bne_iff_ne.2 written
  have ident := Expr.all_inside (.ident span text) isIn worded rfl
  have literal := Expr.all_inside (.literal span text) isIn worded rfl
  have other := all_other isIn
  have alone {expr : Expr} (all : expr.all (Expr.isInside source span) = true) :
      exprsAll (Expr.isInside source span) [expr] = true := Bool.and_eq_true_iff.2 ⟨all, rfl⟩
  have isText : ∀ found, some text = some found → found ≠ "" := fun found isFound => Option.some.inj isFound ▸ written
  cases kind with
  | name => exact ⟨⟨isText, ident, ident, rfl, alone ident, rfl, rfl, nofun, rfl, nofun, rfl⟩, List.forall_mem_nil _⟩
  | literal => exact ⟨⟨isText, literal, other, rfl, alone literal, rfl, rfl, nofun, rfl, nofun, rfl⟩, List.forall_mem_nil _⟩
  | sign => exact ⟨⟨isText, other, other, rfl, alone other, rfl, rfl, nofun, rfl, nofun, rfl⟩, List.forall_mem_nil _⟩

theorem lowerAll_append (first second : List SyntaxNode) :
    SyntaxNode.lowerAll (first ++ second) = SyntaxNode.lowerAll first ++ SyntaxNode.lowerAll second := by
  induction first with
  | nil => rfl
  | cons node nodes ih => rw [List.cons_append, SyntaxNode.lowerAll, SyntaxNode.lowerAll, ih, List.cons_append]

mutual

theorem holds_nodesOf : (role : Option Role) → (tree : Reading.Tree Category) → tree.Placed (isCut source · = true) →
    ∀ part ∈ SyntaxNode.lowerAll (nodesOf role tree), part.Holds source tree.span
  | role, .leaf terminal text span, placed => by
    cases placed with
    | leaf written lies => exact List.forall_mem_singleton.2 (holds_ofLeaf written (Span.isIn_of_lies lies))
  | role, .node category span parts, placed => by
    cases placed with
    | node lies inside within =>
      rw [nodesOf]
      split
      · exact holds_nodesOfParts category role [] parts inside within
      · have hold := holds_nodesOfParts category none [] parts inside within
        exact List.forall_mem_singleton.2 (holds_ofConstruct (Span.isIn_of_lies lies) hold role category)

theorem holds_nodesOfParts {outer : Span} (category : Category) (inherited : Option Role) :
    (before : List (Grammar.Symbol Category)) → (parts : List (Reading.Tree Category)) →
    (∀ tree ∈ parts, tree.Placed (isCut source · = true)) → (∀ tree ∈ parts, tree.span.Within outer) →
    ∀ part ∈ SyntaxNode.lowerAll (nodesOfParts category inherited before parts), part.Holds source outer
  | _, [], _, _ => List.forall_mem_nil _
  | before, tree :: parts, inside, within => by
    rw [nodesOfParts, lowerAll_append]
    refine List.forall_mem_append.2 ⟨fun part isPart => ?_, ?_⟩
    · exact (holds_nodesOf _ tree (inside tree (.head parts)) part isPart).mono (within tree (.head parts))
    · exact holds_nodesOfParts category inherited _ parts (fun other isOther => inside other (.tail tree isOther))
        fun other isOther => within other (.tail tree isOther)

end

/-- **The nodes of a nested tree are lowered to declarations in their places**, whatever comments stand among them. -/
theorem inside_fileNode {tree : Reading.Tree Category} (placed : tree.Placed (isCut source · = true))
    (comments : List Lexeme) : ∀ decl ∈ ((fileNode tree).withComments comments).lower.decls, decl.Inside source := by
  rw [← SyntaxNode.lower_bare, SyntaxNode.bare_withComments, SyntaxNode.lower_bare]
  have lies := Span.isIn_of_lies placed.lies
  cases placed with
  | leaf written _ => exact List.forall_mem_nil _
  | node _ inside within =>
    exact (holds_ofConstruct lies (holds_nodesOfParts .file none [] _ inside within) none .file).decls

end Trees

end StepChart.Go
