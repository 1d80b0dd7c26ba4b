import StepChart.Guard.Shorten
import StepChart.Proofs.Syntax.Inside

/-!
# How forms are laid out

Most forms of expressions are made in one of two ways: they are the same whatever the room, or they are the form of one
part with a few signs before and after it, for which as many bytes are taken off the room. Only selectors and binary
operators look at what there is room for. So what holds of all forms is shown in four cases (`layout_induction`).
-/

namespace StepChart.Guard

open Syntax

/-- The form of an expression does not depend on the room. -/
inductive Fixed : Expr → String → Prop
  | ident {span : Span} {name : String} : Fixed (.ident span name) name
  | literal {span : Span} {text : String} : Fixed (.literal span text) text
  | func {span : Span} {params results : List Field} {body : List Stmt} :
      Fixed (.func span params results body) "func()\x7b\x7d"
  | composite {span : Span} {elements : List Expr} : Fixed (.composite span none elements) "\x7b\x7d"
  | keyValue {span : Span} {key value : Expr} : Fixed (.keyValue span key value) "(...)"
  | other {span : Span} : Fixed (.other span) "(...)"

/-- The form of an expression is that of one part between signs. -/
inductive Wraps : Expr → Expr → (before after : String) → Prop
  | call {span : Span} {function : Expr} {args : List Expr} : Wraps (.call span function args) function "" "()"
  | composite {span : Span} {type : Expr} {elements : List Expr} :
      Wraps (.composite span (some type) elements) type "" "\x7b\x7d"
  | paren {span : Span} {inner : Expr} : Wraps (.paren span inner) inner "(" ")"
  | index {span : Span} {operand index : Expr} : Wraps (.index span operand index) operand "" "[]"
  | slice {span : Span} {operand : Expr} : Wraps (.slice span operand) operand "" "[]"
  | typeAssert {span : Span} {operand : Expr} {type : Option Expr} : Wraps (.typeAssert span operand type) operand "" ""
  | star {span : Span} {operand : Expr} : Wraps (.star span operand) operand "" ""
  | complement {span : Span} {operand : Expr} : Wraps (.unary span .complement operand) operand "^" ""
  | not {span : Span} {operand : Expr} : Wraps (.unary span .not operand) operand "!" ""
  | sign {span : Span} {op : UnaryOp} {operand : Expr} (notComplement : op ≠ .complement) (notNot : op ≠ .not) :
      Wraps (.unary span op operand) operand "" ""

/-- What holds of an expression if it holds of what its form shows of it. -/
@[elab_as_elim]
theorem layout_induction {motive : Expr → Prop} (fixed : ∀ {expr : Expr} {text : String}, Fixed expr text → motive expr)
    (wrapped : ∀ {expr inner : Expr} {before after : String}, Wraps expr inner before after → motive inner → motive expr)
    (selector : ∀ (span : Span) (operand : Expr) (field : String), motive operand → motive (.selector span operand field))
    (binary : ∀ (span : Span) (op : String) (left right : Expr), motive left → motive right →
      motive (.binary span op left right)) : (expr : Expr) → motive expr
  | .ident .. => fixed .ident
  | .literal .. => fixed .literal
  | .func .. => fixed .func
  | .composite _ none _ => fixed .composite
  | .keyValue .. => fixed .keyValue
  | .other _ => fixed .other
  | .call _ function _ => wrapped .call (layout_induction fixed wrapped selector binary function)
  | .composite _ (some type) _ => wrapped .composite (layout_induction fixed wrapped selector binary type)
  | .paren _ inner => wrapped .paren (layout_induction fixed wrapped selector binary inner)
  | .index _ operand _ => wrapped .index (layout_induction fixed wrapped selector binary operand)
  | .slice _ operand => wrapped .slice (layout_induction fixed wrapped selector binary operand)
  | .typeAssert _ operand _ => wrapped .typeAssert (layout_induction fixed wrapped selector binary operand)
  | .star _ operand => wrapped .star (layout_induction fixed wrapped selector binary operand)
  | .unary _ op operand => by
    have inner := layout_induction fixed wrapped selector binary operand
    cases op with
    | complement => exact wrapped .complement inner
    | not => exact wrapped .not inner
    | _ => exact wrapped (.sign (by decide) (by decide)) inner
  | .selector span operand field => selector span operand field (layout_induction fixed wrapped selector binary operand)
  | .binary span op left right =>
    binary span op left right (layout_induction fixed wrapped selector binary left)
      (layout_induction fixed wrapped selector binary right)

variable {expr inner : Expr} {text before after : String}

namespace Fixed

theorem shorten (fixed : Fixed expr text) (room : Int) : shorten expr room = .ok text := by
  cases fixed <;> rfl

theorem full (fixed : Fixed expr text) : full expr = text := by
  cases fixed <;> rfl

theorem ne_empty (fixed : Fixed expr text) (every : expr.all Expr.isWorded = true) : text ≠ "" := by
  cases fixed with
  | ident | literal => exact bne_iff_ne.mp (Expr.all_self every)
  | func | composite | keyValue | other => decide

end Fixed

namespace Wraps

/-- The bytes that are taken off the room for the signs. -/
def taken (before after : String) : Nat := before.utf8ByteSize + after.utf8ByteSize

theorem full (wraps : Wraps expr inner before after) : full expr = before ++ Guard.full inner ++ after := by
  cases wraps with
  | typeAssert | star => rw [Guard.full, String.empty_append, String.append_empty]
  | sign notComplement notNot =>
    rw [Guard.full, String.empty_append, String.append_empty]
    · exact notComplement
    · exact notNot
  | paren => rfl
  | call | composite | index | slice =>
    rw [String.empty_append]
    rfl
  | complement | not =>
    rw [String.append_empty]
    rfl

/-- A test that holds everywhere in an expression holds everywhere in the part. -/
theorem all (wraps : Wraps expr inner before after) {test : Expr → Bool} (every : expr.all test = true) :
    inner.all test = true := by
  rw [Expr.all_eq] at every
  have parts := (Bool.and_eq_true_iff.mp every).2
  cases wraps with
  | call | composite | index | typeAssert => exact (Bool.and_eq_true_iff.mp parts).1
  | paren | slice | star | complement | not | sign => exact parts

end Wraps

end StepChart.Guard
