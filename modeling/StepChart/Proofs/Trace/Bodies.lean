import StepChart.Proofs.Trace.Depth
import StepChart.Proofs.Trace.Worded

/-!
# Where the steps of a file are written

Every step of a file, at any depth, stands for a machine or is the trace of a body that is written in the file: that of a
declared function, or that of a function literal in one (`analyze_within`).
-/

namespace StepChart

open Syntax

/-! ## Bodies -/

/-- The body of a declared function, or of a function literal in it. -/
inductive Syntax.FuncDecl.Body (decl : FuncDecl) : List Stmt → Prop
  | whole : decl.Body (decl.body.getD [])
  | literal {span : Span} {params results : List Field} {body : List Stmt}
      (inside : (Expr.func span params results body).subterms ⊆ stmtsSubterms (decl.body.getD [])) : decl.Body body

namespace Syntax.FuncDecl.Body

variable {decl : FuncDecl} {body : List Stmt}

theorem subterms (isBody : decl.Body body) : stmtsSubterms body ⊆ stmtsSubterms (decl.body.getD []) := by
  cases isBody with
  | whole => exact List.Subset.refl _
  | literal inside =>
    intro expr member
    refine inside (List.mem_cons_of_mem _ ?_)
    exact List.mem_append_right _ member

theorem all {test : Expr → Bool} (isBody : decl.Body body) (every : stmtsAll test (decl.body.getD []) = true) :
    stmtsAll test body = true :=
  (stmtsAll_iff_subterms body).2 fun expr member => (stmtsAll_iff_subterms _).1 every expr (isBody.subterms member)

end Syntax.FuncDecl.Body

/-! ## Steps -/

/-- The step stands for a machine, or it is the trace of a body in the file. -/
def Outline.Within (framework : String) (file : SourceFile) (outline : Outline) : Prop :=
  outline.ForMachine ∨
    ∃ decl ∈ file.decls, ∃ signature body, decl.Body body ∧ outline = trace framework signature body

theorem Outline.Within.subSteps {framework : String} {file : SourceFile} {outline : Outline}
    (within : outline.Within framework file) : ∀ sub ∈ outline.subSteps, sub.Within framework file := by
  rcases within with machine | ⟨decl, isDecl, signature, body, isBody, rfl⟩
  · cases machine <;> exact List.forall_mem_nil _
  · intro sub member
    rcases trace_inner framework signature body sub member with
      machine | ⟨span, params, results, literal, inner, inside, rfl⟩
    · exact .inl machine
    · exact .inr ⟨decl, isDecl, inner, literal, .literal fun _ isInside => isBody.subterms (inside isInside), rfl⟩

theorem outlines_within {package framework : String} {file : SourceFile}
    (qualifier : qualifierOf? file.imports package = some framework) :
    ∀ outline ∈ outlines package file, outline.Within framework file := by
  intro outline member
  rw [outlines, qualifier] at member
  obtain ⟨decl, isDecl, found⟩ := List.mem_filterMap.1 member
  obtain ⟨signature, -, rfl⟩ := Option.map_eq_some_iff.1 found
  refine .inr ⟨decl, isDecl, signature, decl.body.getD [], .whole, ?_⟩
  cases decl.body <;> rfl

section Wording

variable {wording : Wording} {every : Outline → Prop}

mutual

/-- What an outline hands on to the outlines inside it holds of the outlines of all steps inside a step. -/
theorem toStep_inner (closed : ∀ outline : Outline, every outline → ∀ sub ∈ outline.subSteps, every sub) :
    (step : Step) → {outline : Outline} → every outline → outline.toStep wording = .ok step →
      ∀ other ∈ step.inner, ∃ inner, every inner ∧ inner.toStep wording = .ok other
  | ⟨_, _, _, subSteps, _, _, _, _, _⟩, outline, holds, worded =>
    toSteps_inner closed subSteps (closed outline holds) (toStep_worded worded).inner

theorem toSteps_inner (closed : ∀ outline : Outline, every outline → ∀ sub ∈ outline.subSteps, every sub) :
    (steps : List Step) → {outlines : List Outline} → (∀ outline ∈ outlines, every outline) →
      List.Forall₂ (fun outline step => outline.toStep wording = .ok step) outlines steps →
        ∀ other ∈ Step.innerAll steps, ∃ inner, every inner ∧ inner.toStep wording = .ok other
  | [], _, _, _ => List.forall_mem_nil _
  | first :: rest, _, holds, worded => by
    obtain ⟨outline, outlines, wordedFirst, wordedRest, rfl⟩ := List.forall₂_cons_right_iff.1 worded
    rw [List.forall_mem_cons] at holds
    intro other member
    rcases List.mem_cons.1 member with rfl | deeper
    · exact ⟨outline, holds.1, wordedFirst⟩
    · rcases List.mem_append.1 deeper with inFirst | inRest
      · exact toStep_inner closed first holds.1 wordedFirst other inFirst
      · exact toSteps_inner closed rest holds.2 wordedRest other inRest

end

end Wording

/-- **Every step of a file is written in it.** -/
theorem analyze_within {options : AnalysisOptions} {file : SourceFile} {steps : List Step}
    (analyzed : analyze options file = .ok steps) : ∀ step ∈ Step.innerAll steps,
      ∃ (framework : String) (outline : Outline), qualifierOf? file.imports options.framework = some framework ∧
        outline.Within framework file ∧ outline.toStep (.ofSource file.source options.room) = .ok step := by
  have worded := toSteps_forall₂ analyzed
  cases qualifier : qualifierOf? file.imports options.framework with
  | none =>
    rw [outlines, qualifier, List.forall₂_nil_left_iff] at worded
    rw [worded]
    exact List.forall_mem_nil _
  | some framework =>
    intro step member
    obtain ⟨outline, within, inWords⟩ :=
      toSteps_inner (fun _ => Outline.Within.subSteps) steps (outlines_within qualifier) worded step member
    exact ⟨framework, outline, rfl, within, inWords⟩

end StepChart
