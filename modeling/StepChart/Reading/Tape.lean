import StepChart.Grammar.Rule
import StepChart.Syntax.Span

/-!
# What is read

A reader sees a text as a tape of terminals. Which terminal stands at a position can depend on the
terminals the reader can use there.
-/

namespace StepChart.Reading

open Grammar Syntax

/-- A terminal, its text and place, and the position after it. -/
structure Lookahead where
  terminal : Terminal
  text : String
  span : Span
  next : Nat
deriving Repr, Inhabited

/-- A text as a reader sees it. -/
structure Tape where
  /-- The positions of the text. -/
  length : Nat
  /-- The byte at which a position stands. -/
  place (position : Nat) : Nat
  /-- The terminal at a position, given the terminals that can be used. -/
  look (usable : Terminal → Bool) (position : Nat) : Option Lookahead

end StepChart.Reading
