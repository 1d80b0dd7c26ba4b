import StepChart.Proofs.Reading.Placed
import StepChart.Proofs.Syntax.Subterms
import StepChart.Proofs.Text.Cuts

/-!
# Expressions in their places

An expression is in its place if its span is one of the source text and everything in it is inside this span,
the bodies of function literals included. `Expr.isInside` says so of an expression inside an outer span. An
expression is inside as soon as its parts are inside its own span (`Expr.all_inside`), which is how places are
followed from the parts to the whole.
-/

namespace StepChart

open Syntax Text

namespace Syntax

/-! ## Spans -/

/-- The span is one of a source text: its ends are in order, in the text, and between characters. -/
def Span.isIn (source : String) (span : Span) : Bool :=
  decide (span.start ≤ span.stop) && decide (span.stop ≤ source.utf8ByteSize) && isCut source span.start &&
    isCut source span.stop

/-- The span is inside another one. -/
def Span.isWithin (span outer : Span) : Bool :=
  decide (outer.start ≤ span.start) && decide (span.stop ≤ outer.stop)

theorem Span.isWithin_iff {span outer : Span} : span.isWithin outer = true ↔ span.Within outer := by
  unfold isWithin
  rw [Bool.and_eq_true, decide_eq_true_iff, decide_eq_true_iff]
  exact ⟨fun ⟨start, stop⟩ => ⟨start, stop⟩, fun ⟨start, stop⟩ => ⟨start, stop⟩⟩

theorem Span.isIn_of_lies {source : String} {span : Span} (lies : span.Lies (isCut source · = true)) :
    span.isIn source = true := by
  have inText := le_of_isCut lies.stop
  simp only [isIn, Bool.and_eq_true, decide_eq_true_eq]
  exact ⟨⟨⟨lies.ordered, inText⟩, lies.start⟩, lies.stop⟩

/-! ## Tests that say less -/

variable {test weaker : Expr → Bool}

/-- The test holds in the parts of an expression. -/
def Expr.partsAll (test : Expr → Bool) : Expr → Bool
  | .ident .. | .literal .. | .other _ => true
  | .selector _ operand _ | .unary _ _ operand | .star _ operand | .paren _ operand | .slice _ operand =>
    operand.all test
  | .call _ function args => function.all test && exprsAll test args
  | .composite _ type elements => exprAll? test type && exprsAll test elements
  | .keyValue _ first second | .binary _ _ first second | .index _ first second => first.all test && second.all test
  | .typeAssert _ operand type => operand.all test && exprAll? test type
  | .func _ params results body => fieldsAll test params && fieldsAll test results && stmtsAll test body

theorem Expr.all_eq (test : Expr → Bool) (expr : Expr) : expr.all test = (test expr && expr.partsAll test) := by
  cases expr <;> rw [Expr.all, Expr.partsAll]

/-- Both of two tests hold if both of two others do. -/
theorem and_mono {first second third fourth : Bool} (one : first = true → third = true)
    (other : second = true → fourth = true) (both : (first && second) = true) : (third && fourth) = true := by
  obtain ⟨isFirst, isSecond⟩ := Bool.and_eq_true_iff.mp both
  exact Bool.and_eq_true_iff.mpr ⟨one isFirst, other isSecond⟩

section Mono

variable (implies : ∀ expr, test expr = true → weaker expr = true)

include implies

theorem Expr.all_mono (expr : Expr) : expr.all test = true → expr.all weaker = true := by
  rw [Expr.all_iff_subterms, Expr.all_iff_subterms]
  exact fun every inner member => implies inner (every inner member)

theorem exprAll?_mono (expr : Option Expr) : exprAll? test expr = true → exprAll? weaker expr = true := by
  rw [exprAll?_iff_subterms, exprAll?_iff_subterms]
  exact fun every inner member => implies inner (every inner member)

theorem exprsAll_mono (exprs : List Expr) : exprsAll test exprs = true → exprsAll weaker exprs = true := by
  rw [exprsAll_iff_subterms, exprsAll_iff_subterms]
  exact fun every inner member => implies inner (every inner member)

theorem fieldsAll_mono (fields : List Field) : fieldsAll test fields = true → fieldsAll weaker fields = true := by
  rw [fieldsAll_iff_subterms, fieldsAll_iff_subterms]
  exact fun every inner member => implies inner (every inner member)

theorem Stmt.all_mono (stmt : Stmt) : stmt.all test = true → stmt.all weaker = true := by
  rw [Stmt.all_iff_subterms, Stmt.all_iff_subterms]
  exact fun every inner member => implies inner (every inner member)

theorem stmtsAll_mono (stmts : List Stmt) : stmtsAll test stmts = true → stmtsAll weaker stmts = true := by
  rw [stmtsAll_iff_subterms, stmtsAll_iff_subterms]
  exact fun every inner member => implies inner (every inner member)

end Mono

theorem Expr.partsAll_mono (implies : ∀ expr, test expr = true → weaker expr = true) (expr : Expr)
    (parts : expr.partsAll test = true) : expr.partsAll weaker = true := by
  cases expr with
  | ident | literal | other => rfl
  | selector _ operand | unary _ _ operand | star _ operand | paren _ operand | slice _ operand =>
    exact operand.all_mono implies parts
  | call _ function args => exact and_mono (function.all_mono implies) (exprsAll_mono implies args) parts
  | composite _ type elements => exact and_mono (exprAll?_mono implies type) (exprsAll_mono implies elements) parts
  | keyValue _ first second | binary _ _ first second | index _ first second =>
    exact and_mono (first.all_mono implies) (second.all_mono implies) parts
  | typeAssert _ operand type => exact and_mono (operand.all_mono implies) (exprAll?_mono implies type) parts
  | func _ params results body =>
    exact and_mono (and_mono (fieldsAll_mono implies params) (fieldsAll_mono implies results))
      (stmtsAll_mono implies body) parts

theorem fieldsAll_iff {fields : List Field} :
    fieldsAll test fields = true ↔ ∀ field ∈ fields, field.type.all test = true := by
  induction fields with
  | nil => simp [fieldsAll]
  | cons field fields ih =>
    obtain ⟨names, type, variadic⟩ := field
    simp [fieldsAll, ih, Field.type]

theorem stmtsAll_iff {stmts : List Stmt} : stmtsAll test stmts = true ↔ ∀ stmt ∈ stmts, stmt.all test = true := by
  induction stmts with
  | nil => simp [stmtsAll]
  | cons stmt stmts ih => simp [stmtsAll, ih]

/-! ## Places -/

/-- The expression is no name and no literal without a text. -/
def Expr.isWorded : Expr → Bool
  | .ident _ text | .literal _ text => text != ""
  | _ => true

/-- The span of an expression is one of the source, and all that is in the expression is inside its span. -/
def Expr.isPlaced (source : String) (expr : Expr) : Bool :=
  expr.span.isIn source && expr.all fun inner => inner.span.isWithin expr.span

/-- The expression is in its place, with a text if it has to have one, and inside an outer span. -/
def Expr.isInside (source : String) (outer : Span) (expr : Expr) : Bool :=
  expr.isPlaced source && expr.span.isWithin outer && expr.isWorded

variable {source : String} {outer : Span}

theorem Expr.isInside_iff {expr : Expr} : expr.isInside source outer = true ↔
    expr.isPlaced source = true ∧ expr.span.isWithin outer = true ∧ expr.isWorded = true := by
  simp only [isInside, Bool.and_eq_true, and_assoc]

/-- What is inside a span is inside a wider one. -/
theorem Expr.isInside_mono {inner : Span} (within : inner.Within outer) (expr : Expr)
    (inside : expr.isInside source inner = true) : expr.isInside source outer = true := by
  obtain ⟨placed, isWithin, worded⟩ := isInside_iff.mp inside
  exact isInside_iff.mpr ⟨placed, Span.isWithin_iff.mpr ((Span.isWithin_iff.mp isWithin).trans within), worded⟩

/-- **An expression is inside its span if its parts are.** -/
theorem Expr.all_inside (expr : Expr) (isIn : expr.span.isIn source = true) (worded : expr.isWorded = true)
    (parts : expr.partsAll (isInside source expr.span) = true) : expr.all (isInside source expr.span) = true := by
  have itself : expr.span.isWithin expr.span = true := Span.isWithin_iff.mpr (.refl expr.span)
  have enclosed : expr.all (fun inner => inner.span.isWithin expr.span) = true := by
    rw [Expr.all_eq]
    exact Bool.and_eq_true_iff.mpr
      ⟨itself, expr.partsAll_mono (fun inner inside => (isInside_iff.mp inside).2.1) parts⟩
  rw [Expr.all_eq]
  exact Bool.and_eq_true_iff.mpr ⟨isInside_iff.mpr ⟨Bool.and_eq_true_iff.mpr ⟨isIn, enclosed⟩, itself, worded⟩, parts⟩

/-! ## Declarations -/

/-- The test holds for all expressions in a declaration. -/
def FuncDecl.all (test : Expr → Bool) (decl : FuncDecl) : Bool :=
  fieldsAll test (decl.receiver.getD []) && fieldsAll test decl.params && fieldsAll test decl.results &&
    stmtsAll test (decl.body.getD [])

/-- The span of a declaration is one of the source, and all expressions in it are in their places inside of it. -/
def FuncDecl.isPlaced (source : String) (decl : FuncDecl) : Bool :=
  decl.span.isIn source && decl.all fun expr => expr.isPlaced source && expr.span.isWithin decl.span

/-- The declaration is in its place, and so are all expressions in it, with their texts. -/
structure FuncDecl.Inside (source : String) (decl : FuncDecl) : Prop where
  isIn : decl.span.isIn source = true
  all : decl.all (Expr.isInside source decl.span) = true

theorem FuncDecl.all_mono (implies : ∀ expr, test expr = true → weaker expr = true) (decl : FuncDecl) :
    decl.all test = true → decl.all weaker = true :=
  and_mono (and_mono (and_mono (fieldsAll_mono implies _) (fieldsAll_mono implies _)) (fieldsAll_mono implies _))
    (stmtsAll_mono implies _)

theorem FuncDecl.Inside.isPlaced {decl : FuncDecl} (inside : decl.Inside source) : decl.isPlaced source = true := by
  refine Bool.and_eq_true_iff.mpr ⟨inside.isIn, decl.all_mono (fun expr isInside => ?_) inside.all⟩
  obtain ⟨placed, within, -⟩ := Expr.isInside_iff.mp isInside
  exact Bool.and_eq_true_iff.mpr ⟨placed, within⟩

end Syntax

end StepChart
