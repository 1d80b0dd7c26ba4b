import Mathlib.Data.List.Perm.Basic
import StepChart.Go.Lowering

/-!
# Comments among nodes

A comment may stand between any two parts of any construct. Lowering must not take one for a part, so every rule picks
parts in one of four ways, none of which sees a comment: `SameParts` says that two lists of parts agree on all four, and
each rule gives the same for both. Hence a node is lowered to what it is lowered to without the comments in it, wherever
they stand (`lower_bare`). Putting comments into a tree changes nothing but the comments in it, and loses none
(`bare_withComments`, `comments_withComments`).
-/

namespace StepChart.Go

open Syntax

/-! ## Rules -/

/-- Rules that pick parts find the same in both lists. -/
structure SameParts (first second : List Lowered) : Prop where
  named : namedParts first = namedParts second
  unassigned : unassignedParts first = unassignedParts second
  inRole : partsIn first = partsIn second

namespace SameParts

variable {first second : List Lowered} (same : SameParts first second)

include same

theorem partIn? : partIn? first = partIn? second := by
  funext role
  rw [Go.partIn?, Go.partIn?, ← List.head?_filter, ← List.head?_filter]
  exact congrArg List.head? (congrFun same.inRole role)

theorem typeOf : typeOf first = typeOf second := by
  unfold Go.typeOf textIn textIn?
  rw [same.named, same.partIn?]

theorem elementsOf : elementsOf first = elementsOf second := by
  unfold Go.elementsOf
  rw [same.named]

theorem resultsOf : resultsOf first = resultsOf second := by
  unfold Go.resultsOf
  rw [same.partIn?]

theorem exprOf : exprOf first = exprOf second := by
  unfold Go.exprOf firstExpr keyValueOf unaryOf exprIn typeIn elementsIn fieldsIn stmtsIn textIn textIn?
  rw [same.named, same.partIn?, same.typeOf, same.elementsOf, same.resultsOf]

theorem exprsOf : exprsOf first = exprsOf second := by
  unfold Go.exprsOf
  rw [same.elementsOf, same.exprOf]

theorem stmtsOf : stmtsOf first = stmtsOf second := by
  unfold Go.stmtsOf
  rw [same.unassigned]

theorem stmtOf : stmtOf first = stmtOf second := by
  unfold Go.stmtOf stmtOfFirst receiveOf loopOf clausesOf specsOf typeNamesOf exprIn exprsIn stmtsIn textIn textIn?
  rw [same.named, same.unassigned, same.partIn?, same.stmtsOf]

theorem clauseOf? : clauseOf? first = clauseOf? second := by
  unfold Go.clauseOf? exprsIn
  rw [same.partIn?, same.inRole, same.stmtsOf]

theorem fieldOf? : fieldOf? first = fieldOf? second := by
  unfold Go.fieldOf? textsIn typeIn
  rw [same.partIn?, same.inRole]

theorem declsOf : declsOf first = declsOf second := by
  unfold Go.declsOf fieldsIn textIn textIn?
  rw [same.named, same.partIn?, same.resultsOf]

/-- **A construct is lowered to the same as long as its rules find the same parts.** -/
theorem ofConstruct (role : Option Role) (category : Category) (span : Span) :
    Lowered.ofConstruct role category span first = Lowered.ofConstruct role category span second := by
  unfold Lowered.ofConstruct fieldsOf specOf importsOf exprsIn textsIn textIn textIn?
  rw [same.named, same.partIn?, same.inRole, same.typeOf, same.elementsOf, same.exprOf, same.exprsOf, same.stmtsOf,
    same.stmtOf, same.clauseOf?, same.fieldOf?, same.declsOf]

end SameParts

/-! ## Comments among parts -/

/-- Comments have no role. -/
def Unassigned (parts : List Lowered) : Prop :=
  ∀ part ∈ parts, part.kind = .comment → part.role = none

/-- The parts that are not comments. -/
def written (parts : List Lowered) : List Lowered :=
  parts.filter (·.kind != .comment)

/-- Rules find the same parts without the comments among them. -/
theorem sameParts_written {parts : List Lowered} (unassigned : Unassigned parts) : SameParts (written parts) parts := by
  refine ⟨?_, ?_, ?_⟩
  · rw [namedParts, namedParts, written, List.filter_filter]
    refine List.filter_congr fun part _ => ?_
    rw [Bool.and_assoc, Bool.and_self]
  · rw [unassignedParts, unassignedParts, written, List.filter_filter]
    refine List.filter_congr fun part _ => ?_
    rw [Bool.and_right_comm, Bool.and_assoc part.kind.isNamed, Bool.and_self, Bool.and_right_comm]
  · funext role
    rw [partsIn, partsIn, written, List.filter_filter]
    refine List.filter_congr fun part isPart => ?_
    by_cases isComment : part.kind = .comment
    · simp [unassigned part isPart isComment]
    · simp [isComment]

namespace SyntaxNode

/-! ## Comments among nodes -/

mutual

/-- The node without the comments in it. -/
def bare : SyntaxNode → SyntaxNode
  | .construct role category span parts => .construct role category span (bareAll parts)
  | node => node

/-- The nodes without the comments among them and in them. -/
def bareAll : List SyntaxNode → List SyntaxNode
  | [] => []
  | .comment _ _ :: nodes => bareAll nodes
  | node :: nodes => node.bare :: bareAll nodes

end

mutual

/-- The comments in a node, with their places. -/
def comments : SyntaxNode → List (String × Span)
  | .comment text span => [(text, span)]
  | .leaf .. => []
  | .construct _ _ _ parts => commentsAll parts

/-- The comments among nodes and in them. -/
def commentsAll : List SyntaxNode → List (String × Span)
  | [] => []
  | node :: nodes => node.comments ++ commentsAll nodes

end

/-! ## Lowering without comments -/

theorem unassigned_lowerAll (nodes : List SyntaxNode) : Unassigned (lowerAll nodes) := by
  induction nodes with
  | nil => exact List.forall_mem_nil _
  | cons node nodes ih =>
    refine List.forall_mem_cons.2 ⟨?_, ih⟩
    cases node with
    | comment text span => exact fun _ => rfl
    | leaf role kind text span => cases kind <;> nofun
    | construct role category span parts => nofun

mutual

/-- **A node is lowered to the same without the comments in it.** -/
theorem lower_bare : (node : SyntaxNode) → node.bare.lower = node.lower
  | .comment _ _ => rfl
  | .leaf .. => rfl
  | .construct role category span parts => by
    rw [bare, lower, lower, lowerAll_bareAll parts]
    exact (sameParts_written (unassigned_lowerAll parts)).ofConstruct role category span

theorem lowerAll_bareAll : (nodes : List SyntaxNode) → lowerAll (bareAll nodes) = written (lowerAll nodes)
  | [] => rfl
  | .comment _ _ :: nodes => lowerAll_bareAll nodes
  | .leaf role kind text span :: nodes => by
    have rest := congrArg (Lowered.ofLeaf role kind text span :: ·) (lowerAll_bareAll nodes)
    cases kind <;> exact rest
  | .construct role category span parts :: nodes => by
    have first := lower_bare (.construct role category span parts)
    exact congrArg₂ List.cons first (lowerAll_bareAll nodes)

end

-- `return /* x */ ctx.Stop()` returns the call, not the comment before it
example :
    let stop : SyntaxNode := .construct none .call ⟨15, 25⟩ [
      .construct (some .function) .selector ⟨15, 23⟩ [
        .leaf (some .operand) .name "ctx" ⟨15, 18⟩, .leaf none .sign "." ⟨18, 19⟩, .leaf (some .field) .name "Stop" ⟨19, 23⟩],
      .construct (some .arguments) .args ⟨23, 25⟩ [.leaf none .sign "(" ⟨23, 24⟩, .leaf none .sign ")" ⟨24, 25⟩]]
    (SyntaxNode.construct none .returnStmt ⟨0, 25⟩ [
      .leaf none .sign "return" ⟨0, 6⟩, .comment "/* x */" ⟨7, 14⟩, .construct none .exprList ⟨15, 25⟩ [stop]]).lower.stmt =
    .ret [.call ⟨15, 25⟩ (.selector ⟨15, 23⟩ (.ident ⟨15, 18⟩ "ctx") "Stop") []] := rfl

/-! ## Putting comments in their places -/

/-- Putting a comment among nodes changes nothing but the comments there. -/
theorem bareAll_placeAmong (comment : Lexeme) : (nodes : List SyntaxNode) →
    bareAll (placeAmong comment nodes) = bareAll nodes
  | [] => rfl
  | .comment text span :: nodes => by
    rw [placeAmong]
    split
    · rfl
    · exact bareAll_placeAmong comment nodes
  | .leaf role kind text span :: nodes => by
    rw [placeAmong]
    split
    · rfl
    · exact congrArg (SyntaxNode.leaf role kind text span :: ·) (bareAll_placeAmong comment nodes)
  | .construct role category span parts :: nodes => by
    rw [placeAmong]
    split
    · rfl
    · split
      · exact congrArg (SyntaxNode.construct role category span · :: bareAll nodes) (bareAll_placeAmong comment parts)
      · exact congrArg ((SyntaxNode.construct role category span parts).bare :: ·) (bareAll_placeAmong comment nodes)

/-- A comment that is put among nodes is there once more. -/
theorem commentsAll_placeAmong (comment : Lexeme) : (nodes : List SyntaxNode) →
    (commentsAll (placeAmong comment nodes)).Perm ((comment.text, comment.span) :: commentsAll nodes)
  | [] => .refl _
  | .comment text span :: nodes => by
    rw [placeAmong]
    split
    · exact .refl _
    · exact ((commentsAll_placeAmong comment nodes).append_left _).trans List.perm_middle
  | .leaf role kind text span :: nodes => by
    rw [placeAmong]
    split
    · exact .refl _
    · exact ((commentsAll_placeAmong comment nodes).append_left _).trans List.perm_middle
  | .construct role category span parts :: nodes => by
    rw [placeAmong]
    split
    · exact .refl _
    · split
      · exact (commentsAll_placeAmong comment parts).append_right _
      · exact ((commentsAll_placeAmong comment nodes).append_left _).trans List.perm_middle

theorem bare_withComments (node : SyntaxNode) (found : List Lexeme) : (node.withComments found).bare = node.bare := by
  induction found generalizing node with
  | nil => rfl
  | cons comment found ih =>
    refine (ih (node.place comment)).trans ?_
    cases node with
    | comment | leaf => rfl
    | construct role category span parts =>
      exact congrArg (SyntaxNode.construct role category span) (bareAll_placeAmong comment parts)

/-- A construct has the comments that are put into it, and those it had. -/
theorem comments_withComments (role : Option Role) (category : Category) (span : Span) (parts : List SyntaxNode)
    (found : List Lexeme) : ((construct role category span parts).withComments found).comments.Perm
      (found.map (fun comment => (comment.text, comment.span)) ++ commentsAll parts) := by
  induction found generalizing parts with
  | nil => exact .refl _
  | cons comment found ih =>
    have put := (commentsAll_placeAmong comment parts).append_left (found.map fun comment => (comment.text, comment.span))
    exact (ih (placeAmong comment parts)).trans (put.trans List.perm_middle)

/-! ## Nodes of constructs -/

theorem commentsAll_append (first second : List SyntaxNode) :
    commentsAll (first ++ second) = commentsAll first ++ commentsAll second := by
  induction first with
  | nil => rfl
  | cons node nodes ih => rw [List.cons_append, commentsAll, commentsAll, ih, List.append_assoc]

/-- Nodes without comments are bare. -/
theorem bareAll_eq_self : (nodes : List SyntaxNode) → commentsAll nodes = [] → bareAll nodes = nodes
  | [], _ => rfl
  | .comment text span :: nodes, without => by cases without
  | .leaf role kind text span :: nodes, without =>
    congrArg (SyntaxNode.leaf role kind text span :: ·) (bareAll_eq_self nodes without)
  | .construct role category span parts :: nodes, without => by
    obtain ⟨inside, after⟩ := List.append_eq_nil_iff.1 without
    exact congrArg₂ (SyntaxNode.construct role category span · :: ·) (bareAll_eq_self parts inside)
      (bareAll_eq_self nodes after)

end SyntaxNode

open SyntaxNode

mutual

theorem commentsAll_nodesOf : (role : Option Role) → (tree : Reading.Tree Category) → commentsAll (nodesOf role tree) = []
  | _, .leaf .. => rfl
  | role, .node category span parts => by
    rw [nodesOf]
    split
    · exact commentsAll_nodesOfParts category role [] parts
    · exact (List.append_nil _).trans (commentsAll_nodesOfParts category none [] parts)

theorem commentsAll_nodesOfParts (category : Category) (inherited : Option Role) :
    (before : List (Grammar.Symbol Category)) → (parts : List (Reading.Tree Category)) →
      commentsAll (nodesOfParts category inherited before parts) = []
  | _, [] => rfl
  | before, part :: parts => by
    rw [nodesOfParts, commentsAll_append, commentsAll_nodesOf, commentsAll_nodesOfParts category inherited _ parts]
    rfl

end

/-- The node of a tree is bare. -/
theorem bare_fileNode (tree : Reading.Tree Category) : (fileNode tree).bare = fileNode tree :=
  congrArg (SyntaxNode.construct none .file tree.span)
    (bareAll_eq_self _ (commentsAll_nodesOfParts .file none [] tree.children))

/-- With comments in its places, the node of a tree has these comments and no others. -/
theorem comments_fileNode (tree : Reading.Tree Category) (found : List Lexeme) :
    ((fileNode tree).withComments found).comments.Perm (found.map fun comment => (comment.text, comment.span)) := by
  have perm := comments_withComments none .file tree.span (nodesOfParts .file none [] tree.children) found
  rwa [commentsAll_nodesOfParts, List.append_nil] at perm

end StepChart.Go
