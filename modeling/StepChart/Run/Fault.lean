/-!
# Faults

What can go wrong around the analysis, with the text by which it is reported. A fault can be put
into a context, whose text then stands before its own.
-/

namespace StepChart

/-- Something that went wrong. -/
inductive Fault where
  /-- A file cannot be read or written. -/
  | fileSystem (message : String) (path : Option String)
  /-- A source text is not in its language. -/
  | source (path : String) (line column : Nat) (message : String)
  /-- Settings cannot be used. -/
  | settings (message : String)
  /-- A diagram cannot be put out. -/
  | output (message : String)
  /-- The system says what went wrong. -/
  | system (message : String)
  /-- Another fault in a context. -/
  | within (context message : String)
deriving Repr, DecidableEq, Inhabited

namespace Fault

/-- The text of a fault. -/
def text : Fault → String
  | .fileSystem message path => message ++ ": " ++ path.getD ""
  | .source path line column message =>
    path ++ ":" ++ toString line ++ ":" ++ toString column ++ ": " ++ message
  | .settings message => "invalid configuration: " ++ message
  | .output message => "output failed: " ++ message
  | .system message => message
  | .within context message => context ++ ": " ++ message

/-- The fault in a context. -/
def inContext (context : String) (fault : Fault) : Fault :=
  .within context fault.text

end Fault

end StepChart
