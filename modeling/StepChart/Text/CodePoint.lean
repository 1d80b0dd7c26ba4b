/-!
# Tables of code points

A character class of a standard is kept as a list of closed code point ranges.
-/

namespace StepChart.Text

/-- Some range of the table holds the code point. -/
def inRanges (ranges : List (Nat × Nat)) (code : Nat) : Bool :=
  ranges.any fun range => decide (range.1 ≤ code) && decide (code ≤ range.2)

end StepChart.Text
