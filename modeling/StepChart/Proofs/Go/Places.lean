import StepChart.Go.File
import StepChart.Proofs.Basic
import StepChart.Proofs.Go.Lexemes
import StepChart.Proofs.Go.LoweredPlaces
import StepChart.Proofs.Guard.Labels
import StepChart.Proofs.Trace.Guards

/-!
# Places in source files

The tokens of a source text lie between its characters, one after the other; the tree that they are read as is
nested, whatever table it is read by; and what its nodes are lowered to is in its place. So no span of a file that was read
breaks a character or leaves the expression and the declaration around it, and analyzing the file never asks for
an excerpt that does not exist (`parse_places`).
-/

namespace StepChart

open Syntax Text

namespace Go

/-- What the nodes of a text were made from. -/
theorem exists_tree_of_nodesBy {table : Grammar.Table Category} {source : String} {node : SyntaxNode}
    (read : nodesBy table source = .ok node) :
    ∃ found tree, lexemes source = .ok found ∧
      Reading.read table (tape (tokensOf source.utf8ByteSize false found).toArray) = .ok tree ∧
      node = (fileNode tree).withComments (commentsOf found) := by
  unfold nodesBy at read
  split at read
  · cases read
  · next found lexed =>
    split at read
    · cases read
    · next tree isTree =>
      cases read
      exact ⟨found, tree, lexed, isTree, rfl⟩

/-- The declarations of a file that was read are in their places. -/
theorem inside_parse {path source : String} {file : SourceFile} (read : parse path source = .ok file) :
    file.source = source ∧ ∀ decl ∈ file.decls, decl.Inside source := by
  obtain ⟨node, isNode, rfl⟩ := exists_of_map_eq_ok read
  obtain ⟨found, tree, lexed, isTree, rfl⟩ := exists_tree_of_nodesBy isNode
  have sound := sound_tape (tokensLie_tokensOf lexed) (isCut_of_append (List.nil_append _).symm)
  exact ⟨rfl, inside_fileNode (Reading.placed_read sound isTree) _⟩

/-- What holds of every expression in its place holds in the bodies of a file that was read. -/
theorem bodies_parse {path source : String} {file : SourceFile} {test : Expr → Bool}
    (read : parse path source = .ok file)
    (implies : ∀ {outer expr}, Expr.isInside source outer expr = true → test expr = true) :
    ∀ decl ∈ file.decls, stmtsAll test (decl.body.getD []) = true := by
  intro decl isDecl
  have inside := ((inside_parse read).2 decl isDecl).all
  exact stmtsAll_mono (fun _ => implies) _ (Bool.and_eq_true_iff.mp inside).2

/-- The analysis of a file that was read finds every excerpt it asks for. -/
theorem hasExcerpts_analyze {path source : String} {file : SourceFile} (read : parse path source = .ok file)
    (options : AnalysisOptions) : Guard.HasExcerpts (analyze options file) := by
  obtain ⟨rfl, -⟩ := inside_parse read
  have inBodies : ∀ decl ∈ file.decls, stmtsAll (Guard.spanIsIn file.source) (decl.body.getD []) = true :=
    bodies_parse read fun isInside => (Bool.and_eq_true_iff.mp (Expr.isInside_iff.mp isInside).1).1
  exact hasExcerpts_toSteps (fun guard every => Guard.hasExcerpts_label every options.room) _ (outlines_guarded inBodies)

end Go

/-- The span of every declaration is one of the source, and all expressions in the declaration are in their
places inside of it. -/
def Syntax.SourceFile.isPlaced (file : SourceFile) : Bool := file.decls.all (FuncDecl.isPlaced file.source)

/-- Every span of a file that was read is one of its source text, inside the spans of the expressions and the
declaration around it, and the analysis of the file never asks for an excerpt that the text does not have: it comes to an
end unless a number of a label is out of range. -/
theorem parse_places (path source : String) :
    match Go.parse path source with
    | .error _ => True
    | .ok file => file.isPlaced = true ∧ ∀ options, (∀ error, analyze options file ≠ .error (.noExcerpt error)) ∧
        ((∃ steps, analyze options file = .ok steps) ∨ analyze options file = .error .outOfRange) := by
  split
  · trivial
  · next file read =>
    obtain ⟨rfl, inside⟩ := Go.inside_parse read
    refine ⟨List.all_eq_true.mpr fun decl isDecl => (inside decl isDecl).isPlaced, fun options => ?_⟩
    have quoted := Go.hasExcerpts_analyze read options
    exact ⟨quoted, quoted.ok_or_outOfRange⟩

end StepChart
