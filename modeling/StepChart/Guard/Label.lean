import StepChart.Guard.Shorten
import StepChart.Text.Quoted

/-!
# Labels of guards

A guard is the test of an `if` branch or the alternatives of a `case`, of which one holds; its label
writes as many alternatives as there is room for, in brackets. An exclamation mark stands before the
label of an inverted guard.
-/

namespace StepChart

open Syntax

/-- What holds on a branch: one of the alternatives, or none of them if it is inverted. -/
structure Guard where
  alternatives : List Expr
  inverted : Bool
deriving Inhabited

namespace Guard

/-- The room for a label when nothing else is asked for, in bytes. -/
def defaultRoom : Nat := 30

/-- The form of one alternative; an empty form is replaced by an excerpt of the source. -/
def alternativeText (source : String) (alternative : Expr) (room : Int) : Except LabelError String := do
  let short ← shorten alternative room
  if short.isEmpty then (excerpt source alternative.span room.toNat).mapError .noExcerpt else return short

/-- Adds the forms of further alternatives to a label as long as there is room; dots stand for the
others. -/
def extend (source : String) (room : Int) (label : String) : List Expr → Except LabelError String
  | [] => .ok label
  | alternative :: rest => do
    let remaining ← checked (room - bytes label)
    if 3 < remaining then
      let part ← alternativeText source alternative remaining
      let most ← checked (remaining + 3)
      if bytes part < most then extend source room (label ++ part) rest else return label ++ "..."
    else return label ++ "..."

/-- The text of a label before it is quoted. -/
def text (source : String) (room : Int) : List Expr → Except LabelError String
  | [] => .ok ""
  | first :: rest => do
    let label ← alternativeText source first room
    extend source room label rest

/-- A text in the form of a label. -/
def bracket (inverted : Bool) (text : String) : String :=
  (if inverted then "!" else "") ++ "[" ++ Text.escape text ++ "]"

/-- A room that is given as an unsigned 64-bit number is read as a signed one. -/
def signedRoom (room : Nat) : Int := (Int64.ofNat room).toInt

/-- The label of a guard for about `room` bytes of text. A guard without alternatives has an empty
label. -/
def label (source : String) (room : Nat) (guard : Guard) : Except LabelError String :=
  match guard.alternatives with
  | [] => .ok ""
  | alternatives => (text source (signedRoom room) alternatives).map (bracket guard.inverted)

end Guard

end StepChart
