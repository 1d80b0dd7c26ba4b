import StepChart.Text.Search
import StepChart.Trace.Chain

/-!
# Operations on the context

The last name of a chain says what the framework is asked to do. `Operation.ofName` is the whole
vocabulary.
-/

namespace StepChart

open Text

/-- What a state update asks for. -/
inductive Operation where
  /-- Run another machine, then go on in this one. -/
  | callSubroutine
  /-- End with an error. -/
  | fail
  /-- End. -/
  | stop
  /-- Become the machine that the argument constructs. -/
  | replace
  /-- Become the machine that the argument is. -/
  | replaceWith
  /-- Repeat the step or take a way that is not said. -/
  | repeatOrElse
  /-- Repeat the step or jump. -/
  | repeatOrJump
  /-- Repeat the step or jump as a descriptor says. -/
  | repeatOrJumpAsDescribed
  /-- Jump as a descriptor says. -/
  | jumpAsDescribed
  /-- Jump, or repeat the step if there is no argument. -/
  | jump
deriving Repr, DecidableEq, Inhabited

/-- The operation a name stands for. -/
def Operation.ofName (name : String) : Operation :=
  match name with
  | "CallSubroutine" => .callSubroutine
  | "Error" | "Errorf" => .fail
  | "Stop" => .stop
  | "Replace" => .replace
  | "ReplaceWith" => .replaceWith
  | "ThenRepeatOrElse" => .repeatOrElse
  | "ThenRepeatOrJump" => .repeatOrJump
  | "ThenRepeatOrJumpExt" => .repeatOrJumpAsDescribed
  | name => if endsWith "Ext" name || endsWith "Step" name then .jumpAsDescribed else .jump

/-- What a state update waits for, as in `ctx.Sleep().ThenRepeat()`: the name before the last one,
with the name before that if there is one. Only updates whose last name starts with `Then` wait. -/
def Chain.waitLabel (chain : Chain) : String :=
  if startsWith "Then" chain.name then
    match chain.parent?.filter hasName with
    | none => ""
    | some waited =>
      match waited.parent?.filter hasName with
      | some owner => owner.name ++ "." ++ waited.name
      | none => waited.name
  else ""

end StepChart
