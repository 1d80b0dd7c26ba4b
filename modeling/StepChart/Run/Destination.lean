/-!
# Where diagrams go

A diagram goes to the console, to a file, or into a text that is kept in memory.
-/

namespace StepChart

/-- Where a diagram can go. -/
inductive Destination where
  | console
  | file (path : String)
  | memory
deriving Repr, DecidableEq, Inhabited

/-- How messages speak of a destination. -/
def Destination.description : Destination → String
  | .console => "stdout"
  | .file path => "file:" ++ path
  | .memory => "memory"

/-- A text that grows with every piece that is written to it. -/
structure Transcript where
  content : String := ""
deriving Repr, DecidableEq, Inhabited

/-- Writes a further piece. -/
def Transcript.write (transcript : Transcript) (piece : String) : Transcript :=
  ⟨transcript.content ++ piece⟩

end StepChart
