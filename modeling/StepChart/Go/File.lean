import StepChart.Go.Lookahead
import StepChart.Go.Lowering
import StepChart.Go.Rules
import StepChart.Reading.Reader
import StepChart.Text.Search

/-!
# Source files

`nodes` reads a whole source text by the grammar of Go. The grammar knows no comments: each is put where it
stands once the rest has been read. `parse` lowers the nodes; statements outside of functions are dropped.
-/

namespace StepChart.Go

open Grammar Syntax

/-- The table of the grammar. It is made when the first text is read. -/
def table : Thunk (Table Category) :=
  Thunk.mk fun _ => Table.of grammar

/-- A source text that is not Go: no reading goes on at this byte. -/
structure SyntaxError where
  offset : Nat
deriving Repr, DecidableEq, Inhabited

/-- The line of an error, counted from one. -/
def SyntaxError.line (error : SyntaxError) (source : String) : Nat :=
  (Text.takeBytes error.offset source.toList).count '\n' + 1

/-- The byte of an error in its line, counted from one. -/
def SyntaxError.column (error : SyntaxError) (source : String) : Nat :=
  Text.byteLength (Text.afterLast '\n' (Text.takeBytes error.offset source.toList)) + 1

/-- The nodes of a source text that is read by a table, its comments among them. -/
def nodesBy (table : Table Category) (source : String) : Except SyntaxError SyntaxNode :=
  match lexemes source with
  | .error offset => .error ⟨offset⟩
  | .ok lexemes =>
    match Reading.read table (tape (tokensOf source.utf8ByteSize false lexemes).toArray) with
    | .error offset => .error ⟨offset⟩
    | .ok tree => .ok ((fileNode tree).withComments (commentsOf lexemes))

/-- The nodes of a source text. -/
def nodes (source : String) : Except SyntaxError SyntaxNode := nodesBy table.get source

/-- Reads a source text. -/
def parse (path source : String) : Except SyntaxError SourceFile :=
  (nodes source).map fun node =>
    let lowered := node.lower
    { path, source, imports := lowered.imports, decls := lowered.decls }

end StepChart.Go
