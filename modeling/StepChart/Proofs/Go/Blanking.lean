import StepChart.Analysis
import StepChart.Proofs.Go.Comments
import StepChart.Proofs.Go.Places

/-!
# Source texts without their comments

`withoutComments` puts a blank for each byte of a comment. The text it gives has the tokens of the source text
at their places, so its nodes are those of the source text without the comments among them (`nodesBy_withoutComments`).
They are lowered to the same, so the text is read as the same file and has the same steps (`parse_withoutComments`).
-/

namespace StepChart

open Syntax Text

namespace Go

/-! ## The text -/

/-- The characters of a lexeme, or blanks for the bytes of a comment. -/
def Lexeme.blanked (lexeme : Lexeme) : List Char :=
  if lexeme.kind = .comment then List.replicate lexeme.text.utf8ByteSize ' ' else lexeme.text.toList

theorem Lexeme.blanked_comment (text : String) (span : Span) :
    blanked ⟨.comment, text, span⟩ = List.replicate text.utf8ByteSize ' ' :=
  rfl

theorem Lexeme.blanked_of_ne {kind : LexemeKind} (notComment : kind ≠ .comment) (cs : List Char) (span : Span) :
    blanked ⟨kind, String.ofList cs, span⟩ = cs :=
  (if_neg notComment).trans String.toList_ofList

/-- A source text with blanks in place of its comments; the line break that ends a comment stays. -/
def withoutComments (source : String) : String :=
  match lexemes source with
  | .error _ => source
  | .ok found => String.ofList (found.flatMap Lexeme.blanked)

/-- The comments of a source text with their places. -/
def comments (source : String) : List (String × Span) :=
  match lexemes source with
  | .error _ => []
  | .ok found => (commentsOf found).map fun comment => (comment.text, comment.span)

/-! ## Its lexemes -/

section Lexes

variable {start : Nat} {cs : List Char} {found : List Lexeme}

/-- The lexemes of a text, with blanks for the comments among them, make a text with blanks for its comments. -/
theorem blanked_of_lexes (lexes : Lexes start cs found) : Blanked cs (found.flatMap Lexeme.blanked) := by
  induction lexes with
  | nil => exact .nil
  | @cons start c cs kind extra rest isFirst later ih =>
    rw [List.flatMap_cons]
    nth_rewrite 1 [← List.take_append_drop extra cs]
    by_cases isComment : kind = .comment
    · subst isComment
      obtain ⟨rfl, noNull⟩ := comment_text isFirst
      rw [Lexeme.blanked_comment, utf8ByteSize_eq_byteLength]
      exact .comment noNull ih
    · rw [Lexeme.blanked_of_ne isComment]
      exact ih.append (c :: cs.take extra)

/-- Blanks before a text are lexemes of their own. -/
theorem exists_lexes_blanks (n : Nat) (lexes : Lexes (start + n) cs found) :
    ∃ blanks, Lexes start (List.replicate n ' ' ++ cs) (blanks ++ found) ∧ ∀ blank ∈ blanks, blank.kind = .blank := by
  induction n generalizing start with
  | zero => exact ⟨[], lexes, nofun⟩
  | succ n ih =>
    rw [Nat.add_comm n 1, ← Nat.add_assoc] at lexes
    obtain ⟨blanks, isCut, areBlank⟩ := ih lexes
    have isFirst : lexemeAt? ' ' (List.replicate n ' ' ++ cs) = some (.blank, 0) := rfl
    refine ⟨_ :: blanks, .cons isFirst isCut, ?_⟩
    rintro blank (_ | ⟨_, isLater⟩)
    · rfl
    · exact areBlank blank isLater

theorem tokensOf_blanks {blanks : List Lexeme} (areBlank : ∀ blank ∈ blanks, blank.kind = .blank) (stop : Nat)
    (newline : Bool) :
    tokensOf stop newline (blanks ++ found) = tokensOf stop newline found := by
  induction blanks with
  | nil => rfl
  | cons blank blanks ih =>
    rw [List.cons_append, tokensOf, areBlank blank (.head blanks)]
    dsimp only [LexemeKind.token?]
    rw [show (newline || decide (LexemeKind.blank = .newline)) = newline from Bool.or_false newline]
    exact ih fun other isOther => areBlank other (.tail blank isOther)

theorem take_drop_blanked {extra : Nat} {blanks : List Char} (blanked : Blanked (cs.drop extra) blanks) :
    (cs.take extra ++ blanks).take extra = cs.take extra ∧ (cs.take extra ++ blanks).drop extra = blanks := by
  rcases Nat.le_total extra cs.length with le | ge
  · have size : (cs.take extra).length = extra := List.length_take_of_le le
    exact ⟨List.take_left' size, List.drop_left' size⟩
  · rw [List.drop_eq_nil_of_le ge] at blanked
    cases blanked
    rw [List.append_nil, List.take_take, Nat.min_self]
    exact ⟨rfl, List.drop_eq_nil_of_le (List.length_take_le _ _)⟩

/-- **Blanks for comments leave the tokens of a text.** -/
theorem lexes_blanked (lexes : Lexes start cs found) :
    ∃ others, Lexes start (found.flatMap Lexeme.blanked) others ∧ (∀ other ∈ others, other.kind ≠ .comment) ∧
      ∀ stop newline, tokensOf stop newline others = tokensOf stop newline found := by
  induction lexes with
  | nil => exact ⟨[], .nil, nofun, fun _ _ => rfl⟩
  | @cons start c cs kind extra rest isFirst later ih =>
    obtain ⟨others, isCut, noComment, sameTokens⟩ := ih
    rw [List.flatMap_cons]
    by_cases isComment : kind = .comment
    · subst isComment
      -- there is a blank for each byte of the comment, so the rest starts where it did
      rw [← utf8ByteSize_eq_byteLength] at isCut
      obtain ⟨blanks, isCut, areBlank⟩ := exists_lexes_blanks _ isCut
      refine ⟨blanks ++ others, isCut, fun other isOther => ?_, fun stop newline => ?_⟩
      · rcases List.mem_append.mp isOther with isBlank | isLater
        · rw [areBlank other isBlank]
          nofun
        · exact noComment other isLater
      · rw [tokensOf_blanks areBlank, sameTokens, tokensOf]
        dsimp only [LexemeKind.token?]
        rw [show (newline || decide (LexemeKind.comment = .newline)) = newline from Bool.or_false newline]
    · have blanked := blanked_of_lexes later
      -- the lexeme itself is kept, and what follows it has blanks for its comments
      obtain ⟨taken, dropped⟩ := take_drop_blanked blanked
      have lexes := @Lexes.cons start c _ kind extra others (lexemeAt?_blanked isFirst isComment blanked)
        (by rwa [taken, dropped])
      rw [taken] at lexes
      rw [Lexeme.blanked_of_ne isComment]
      refine ⟨_, lexes, fun other isOther => ?_, fun stop newline => ?_⟩
      · rcases List.mem_cons.mp isOther with rfl | isLater
        · exact isComment
        · exact noComment other isLater
      · simp only [tokensOf, sameTokens]

end Lexes

/-! ## Its nodes -/

section Nodes

variable {source : String} {found : List Lexeme}

theorem commentsOf_eq_nil (noComment : ∀ lexeme ∈ found, lexeme.kind ≠ .comment) : commentsOf found = [] :=
  List.filter_eq_nil_iff.2 fun lexeme isLexeme => by simpa using noComment lexeme isLexeme

/-- The text without comments is cut into lexemes again; none of them is a comment, and the tokens are the same. -/
theorem exists_lexemes_withoutComments (isCut : lexemes source = .ok found) :
    ∃ others, lexemes (withoutComments source) = .ok others ∧ (∀ other ∈ others, other.kind ≠ .comment) ∧
      ∀ stop newline, tokensOf stop newline others = tokensOf stop newline found := by
  have isText : (withoutComments source).toList = found.flatMap Lexeme.blanked := by
    rw [withoutComments, isCut]
    exact String.toList_ofList
  rcases lexemes_eq_ok_iff.mp isCut with ⟨cs, rest, -, lexes, rfl⟩ | ⟨noMark, lexes⟩
  · obtain ⟨others, lexes, noComment, sameTokens⟩ := lexes_blanked lexes
    refine ⟨_, lexemes_eq_ok_iff.mpr (.inl ⟨_, others, isText, lexes, rfl⟩), ?_, fun stop newline => ?_⟩
    · rintro other (_ | ⟨_, isLater⟩)
      · nofun
      · exact noComment other isLater
    · simp only [tokensOf, sameTokens]
  · obtain ⟨others, lexes', noComment, sameTokens⟩ := lexes_blanked lexes
    rw [← isText] at lexes'
    have noMark' : (withoutComments source).toList.head? ≠ some byteOrderMark := by
      intro isMark
      rw [isText] at isMark
      exact noMark ((blanked_of_lexes lexes).head?_eq_some (by decide) isMark)
    exact ⟨others, lexemes_eq_ok_iff.mpr (.inr ⟨noMark', lexes'⟩), noComment, sameTokens⟩

theorem utf8ByteSize_withoutComments (source : String) :
    (withoutComments source).utf8ByteSize = source.utf8ByteSize := by
  cases isCut : lexemes source with
  | error offset => rw [withoutComments, isCut]
  | ok found =>
    have blanked : Blanked source.toList (found.flatMap Lexeme.blanked) := by
      rcases lexemes_eq_ok_iff.mp isCut with ⟨cs, rest, isText, lexes, rfl⟩ | ⟨-, lexes⟩
      · rw [isText]
        exact .keep byteOrderMark (blanked_of_lexes lexes)
      · exact blanked_of_lexes lexes
    rw [withoutComments, isCut]
    dsimp only
    rw [utf8ByteSize_eq_byteLength, blanked.byteLength_eq, ← utf8ByteSize_eq_byteLength, String.ofList_toList]

theorem comments_withoutComments (source : String) : comments (withoutComments source) = [] := by
  cases isCut : lexemes source with
  | error offset => rw [withoutComments, isCut, comments, isCut]
  | ok found =>
    obtain ⟨others, isCut', noComment, -⟩ := exists_lexemes_withoutComments isCut
    rw [comments, isCut']
    dsimp only
    rw [commentsOf_eq_nil noComment, List.map_nil]

/-- Every comment of a source text is a node of it. -/
theorem comments_nodes {node : SyntaxNode} (read : nodes source = .ok node) : node.comments.Perm (comments source) := by
  obtain ⟨found, tree, isCut, -, rfl⟩ := exists_tree_of_nodesBy read
  rw [comments, isCut]
  exact comments_fileNode tree (commentsOf found)

/-- **The nodes of a text without its comments are its nodes without the comments among them**, whatever table the text
is read by. -/
theorem nodesBy_withoutComments (table : Grammar.Table Category) (source : String) :
    nodesBy table (withoutComments source) = (nodesBy table source).map SyntaxNode.bare := by
  cases isCut : lexemes source with
  | error offset =>
    rw [withoutComments, isCut, nodesBy, isCut]
    rfl
  | ok found =>
    obtain ⟨others, isCut', noComment, sameTokens⟩ := exists_lexemes_withoutComments isCut
    rw [nodesBy, nodesBy, isCut, isCut']
    dsimp only
    rw [utf8ByteSize_withoutComments, sameTokens, commentsOf_eq_nil noComment]
    cases Reading.read table (tape (tokensOf source.utf8ByteSize false found).toArray) with
    | error offset => rfl
    | ok tree =>
      have same : (fileNode tree).withComments [] = ((fileNode tree).withComments (commentsOf found)).bare :=
        (bare_fileNode tree).symm.trans (SyntaxNode.bare_withComments _ _).symm
      exact congrArg Except.ok same

end Nodes

/-- **A text without its comments is read as the same file.** -/
theorem parse_withoutComments_eq (path source : String) :
    parse path (withoutComments source) =
      (parse path source).map fun file => { file with source := withoutComments source } := by
  rw [parse, parse, nodes, nodesBy_withoutComments, ← nodes]
  cases nodes source with
  | error offset => rfl
  | ok node =>
    simp only [Except.map, SyntaxNode.lower_bare]

/-- The analysis of a file that was read does not depend on its source text. -/
theorem analyze_source {path source : String} {file : SourceFile} (read : parse path source = .ok file)
    (options : AnalysisOptions) (other : String) :
    analyze options { file with source := other } = analyze options file := by
  have worded : ∀ decl ∈ file.decls, stmtsAll Expr.isWorded (decl.body.getD []) = true :=
    bodies_parse read fun isInside => (Expr.isInside_iff.mp isInside).2.2
  have sameLabels : ∀ guard : Guard, exprsAll Expr.isWorded guard.alternatives = true →
      Guard.label other options.room guard = Guard.label file.source options.room guard :=
    fun guard every => Guard.label_source every options.room file.source
  exact @toSteps_wording _ (.ofSource other options.room) (.ofSource file.source options.room) rfl sameLabels _
    (outlines_guarded worded)

end Go

/-- **Comments do not matter.** A source text with blanks for its comments has as many bytes and no comments. Every
comment of the text is a node of it, and without these nodes there are the nodes of the text with blanks. Wherever
comments stand among nodes, the nodes are lowered to the same without them. So the text with blanks is read as the same
imports and the same declarations, with all statements, expressions and spans in them, and it has the same steps,
whatever the options are. -/
theorem parse_withoutComments (path source : String) :
    (Go.withoutComments source).utf8ByteSize = source.utf8ByteSize ∧
      Go.comments (Go.withoutComments source) = [] ∧
      (∀ node, Go.nodes source = .ok node → node.comments.Perm (Go.comments source)) ∧
      Go.nodes (Go.withoutComments source) = (Go.nodes source).map Go.SyntaxNode.bare ∧
      (∀ node : Go.SyntaxNode, node.bare.lower = node.lower) ∧
      (Go.parse path (Go.withoutComments source) =
        (Go.parse path source).map fun file => { file with source := Go.withoutComments source }) ∧
      ∀ options, (Go.parse path (Go.withoutComments source)).map (analyze options) =
        (Go.parse path source).map (analyze options) := by
  refine ⟨Go.utf8ByteSize_withoutComments source, Go.comments_withoutComments source, fun _ => Go.comments_nodes,
    Go.nodesBy_withoutComments _ source, Go.SyntaxNode.lower_bare, Go.parse_withoutComments_eq path source,
    fun options => ?_⟩
  rw [Go.parse_withoutComments_eq]
  cases read : Go.parse path source with
  | error fault => rfl
  | ok file => exact congrArg Except.ok (Go.analyze_source read options _)

end StepChart
