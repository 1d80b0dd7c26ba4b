import StepChart.Syntax.Tree
import StepChart.Text.Bytes

/-!
# Excerpts of a source text

The text of a span, cut to a number of bytes. The cut at the end moves back to the end of a
character; a span that begins inside a character has no excerpt if it has to be cut, and an empty
one if it does not.
-/

namespace StepChart.Syntax

open Text

/-- Why a source text has no excerpt at a span. -/
inductive ExcerptError where
  | startInsideCharacter
deriving Repr, DecidableEq, Inhabited

/-- The text of `span`, of which at most `limit` bytes are kept; three dots follow if some were
dropped. -/
def excerpt (source : String) (span : Span) (limit : Nat) : Except ExcerptError String :=
  let text := source.toList
  let stop := min span.stop (byteLength text)
  let start := min span.start stop
  if limit < stop - start then
    match dropBytes? start text with
    | some rest => .ok (String.ofList (takeBytes limit rest) ++ "...")
    | none => .error .startInsideCharacter
  else
    match (dropBytes? start text).bind (takeBytes? (stop - start)) with
    | some cut => .ok (String.ofList cut)
    | none => .ok ""

end StepChart.Syntax
