import StepChart.Syntax.Excerpt

/-!
# Room for labels

The room for a label is a signed 64-bit number, from which the bytes of what is written are taken off. The numbers on
the way are worked out as integers and checked: there is no label if one of them is out of range.
-/

namespace StepChart

open Syntax

/-- Why a guard has no label. -/
inductive LabelError where
  /-- The label would quote the source, which cannot be cut there. -/
  | noExcerpt (error : ExcerptError)
  /-- A number is out of range. -/
  | outOfRange
deriving Repr, DecidableEq, Inhabited

namespace Guard

/-- The number is one of 64 bits with a sign. -/
def Fits (number : Int) : Prop := Int64.minValue.toInt ≤ number ∧ number ≤ Int64.maxValue.toInt

instance (number : Int) : Decidable (Fits number) := inferInstanceAs (Decidable (_ ∧ _))

/-- The result of a sum or a difference, if it is in range. -/
def checked (number : Int) : Except LabelError Int := if Fits number then .ok number else .error .outOfRange

/-- The bytes of a text. -/
def bytes (text : String) : Int := text.utf8ByteSize

end Guard

end StepChart
