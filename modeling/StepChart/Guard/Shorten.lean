import StepChart.Guard.Room
import StepChart.Syntax.Tree

/-!
# Short forms of expressions

`shorten` writes an expression in about as many bytes as it is allowed. Arguments, elements and
bodies are always left out; what else does not fit is replaced by dots. The room may be used up before
the end of the expression, and there is no form if it gets out of range. `full` writes the same form
without an allowance.
-/

namespace StepChart.Guard

open Syntax

mutual

/-- The form of an expression in about `room` bytes. -/
def shorten : Expr → (room : Int) → Except LabelError String
  | .selector _ operand field, room =>
    if room ≤ bytes field then .ok ("(...)." ++ field)
    else do
      let left ← checked (room - bytes field)
      let form ← shorten operand (← checked (left - 1))
      return form ++ "." ++ field
  | .ident _ name, _ => .ok name
  | .call _ function _, room => do
    let form ← shorten function (← checked (room - 2))
    return form ++ "()"
  | .literal _ text, _ => .ok text
  | .func .., _ => .ok "func()\x7b\x7d"
  | .composite _ type _, room => do
    let form ← shortenType type room
    return form ++ "\x7b\x7d"
  | .paren _ inner, room => do
    let form ← shorten inner (← checked (room - 2))
    return "(" ++ form ++ ")"
  | .index _ operand _, room => do
    let form ← shorten operand (← checked (room - 2))
    return form ++ "[]"
  | .slice _ operand, room => do
    let form ← shorten operand (← checked (room - 2))
    return form ++ "[]"
  | .typeAssert _ operand _, room => shorten operand room
  | .star _ operand, room => shorten operand room
  | .unary _ .complement operand, room => do
    let form ← shorten operand (← checked (room - 1))
    return "^" ++ form
  | .unary _ .not operand, room => do
    let form ← shorten operand (← checked (room - 1))
    return "!" ++ form
  | .unary _ _ operand, room => shorten operand room
  | .binary _ op left right, room => do
    let rightRoom ← checked (room - 1)
    let last ← shorten right (← checked (rightRoom - bytes op))
    let tail := op ++ last
    if room ≤ bytes tail then return "..." ++ tail
    else
      let form ← shorten left (← checked (room - bytes tail))
      return form ++ tail
  | .keyValue .., _ => .ok "(...)"
  | .other _, _ => .ok "(...)"

/-- The form of the type of a literal, which leaves room for the braces; it may be left out. -/
def shortenType : Option Expr → (room : Int) → Except LabelError String
  | none, _ => .ok ""
  | some type, room => do shorten type (← checked (room - 2))

end

mutual

/-- The form of an expression when there is room for all of it. -/
def full : Expr → String
  | .selector _ operand field => full operand ++ "." ++ field
  | .ident _ name => name
  | .call _ function _ => full function ++ "()"
  | .literal _ text => text
  | .func .. => "func()\x7b\x7d"
  | .composite _ type _ => fullType type ++ "\x7b\x7d"
  | .paren _ inner => "(" ++ full inner ++ ")"
  | .index _ operand _ => full operand ++ "[]"
  | .slice _ operand => full operand ++ "[]"
  | .typeAssert _ operand _ => full operand
  | .star _ operand => full operand
  | .unary _ .complement operand => "^" ++ full operand
  | .unary _ .not operand => "!" ++ full operand
  | .unary _ _ operand => full operand
  | .binary _ op left right => full left ++ (op ++ full right)
  | .keyValue .. => "(...)"
  | .other _ => "(...)"

/-- The form of the type of a literal when there is room for all of it. -/
def fullType : Option Expr → String
  | none => ""
  | some type => full type

end

end StepChart.Guard
