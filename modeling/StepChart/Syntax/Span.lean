/-!
# Byte ranges

The place of a construct in a source text.
-/

namespace StepChart.Syntax

/-- A byte range of a source text, from `start` up to and without `stop`. -/
structure Span where
  start : Nat := 0
  stop : Nat := 0
deriving Repr, DecidableEq, Inhabited

/-- The number of bytes in the range; an inverted range has none. -/
def Span.length (span : Span) : Nat := span.stop - span.start

/-- The range holds no byte. -/
def Span.isEmpty (span : Span) : Bool := span.length == 0

end StepChart.Syntax
