import StepChart.Analysis
import StepChart.Proofs.Syntax.Samples

/-!
# Blank imports

A blank import gives a package no qualifier. The qualifier of the framework is that of its first import, so a blank import
in front of a usable one hides it, and the file gives no steps; behind it, a blank import changes nothing.
`blank_imports_hide` says exactly when blank imports show.
-/

namespace StepChart

open Syntax

/-- The import of a package under the blank name. -/
def blankImport (package : String) : Import := ⟨some "_", package⟩

/-- A list of imports with blank imports of a package put in anywhere. -/
inductive WithBlanks (package : String) : (imports more : List Import) → Prop
  | nil : WithBlanks package [] []
  | keep (imported : Import) {imports more : List Import} (rest : WithBlanks package imports more) :
    WithBlanks package (imported :: imports) (imported :: more)
  | blank {imports more : List Import} (rest : WithBlanks package imports more) :
    WithBlanks package imports (blankImport package :: more)

/-- A blank import comes before all other imports of a package. -/
def BlankFirst (package : String) (imports : List Import) : Prop :=
  ∃ before after, imports = before ++ blankImport package :: after ∧ ∀ imported ∈ before, imported.path ≠ package

theorem blankFirst_iff {package : String} {imports : List Import} :
    BlankFirst package imports ↔ imports.find? (·.path == package) = some (blankImport package) := by
  rw [List.find?_eq_some_iff_append]
  simp [BlankFirst, blankImport]

/-- The qualifier is that of the first import. -/
theorem qualifierOf?_congr {package : String} {first second : List Import}
    (same : first.find? (·.path == package) = second.find? (·.path == package)) :
    qualifierOf? first package = qualifierOf? second package := by
  unfold qualifierOf?
  rw [same]

theorem BlankFirst.qualifierOf?_eq {package : String} {imports : List Import} (blank : BlankFirst package imports) :
    qualifierOf? imports package = none := by
  unfold qualifierOf?
  rw [blankFirst_iff.1 blank]
  rfl

/-- Unless a blank import comes first, the first import is the one that was first without the blank ones. -/
theorem WithBlanks.find?_eq {package : String} {imports more : List Import} (blanked : WithBlanks package imports more)
    (usable : ¬ BlankFirst package more) :
    more.find? (·.path == package) = imports.find? (·.path == package) := by
  induction blanked with
  | nil => rfl
  | keep imported rest ih =>
    rw [List.find?_cons, List.find?_cons]
    split
    · rfl
    · next other =>
      refine ih fun blank => usable (blankFirst_iff.2 ?_)
      rw [List.find?_cons, other]
      exact blankFirst_iff.1 blank
  | blank rest ih => exact absurd ⟨[], _, rfl, List.forall_mem_nil _⟩ usable

section Steps

variable {options : AnalysisOptions} {file : SourceFile}

/-- A file without a qualifier for the framework gives no steps. -/
theorem analyze_of_unqualified (unqualified : qualifierOf? file.imports options.framework = none) :
    analyze options file = .ok [] := by
  unfold analyze outlines
  rw [unqualified]
  rfl

/-- The steps of a file depend on its imports through the qualifier of the framework. -/
theorem analyze_withImports {imports : List Import}
    (same : qualifierOf? imports options.framework = qualifierOf? file.imports options.framework) :
    analyze options { file with imports } = analyze options file := by
  unfold analyze outlines
  rw [same]

/-- **A blank import shows exactly if it comes first.** If the first import of the framework is a blank one, the file has
no qualifier for it and gives no steps; otherwise the blank imports that were put in change neither. So they leave the
qualifier as it was if and only if none of them hides a usable import, and the steps if and only if none hides steps. -/
theorem blank_imports_hide {imports : List Import} (blanked : WithBlanks options.framework file.imports imports) :
    (BlankFirst options.framework imports →
      qualifierOf? imports options.framework = none ∧ analyze options { file with imports } = .ok []) ∧
    (¬ BlankFirst options.framework imports →
      qualifierOf? imports options.framework = qualifierOf? file.imports options.framework ∧
        analyze options { file with imports } = analyze options file) ∧
    (qualifierOf? imports options.framework = qualifierOf? file.imports options.framework ↔
      (BlankFirst options.framework imports → qualifierOf? file.imports options.framework = none)) ∧
    (analyze options { file with imports } = analyze options file ↔
      (BlankFirst options.framework imports → analyze options file = .ok [])) := by
  have hidden : BlankFirst options.framework imports →
      qualifierOf? imports options.framework = none ∧ analyze options { file with imports } = .ok [] :=
    fun blank => ⟨blank.qualifierOf?_eq, analyze_of_unqualified blank.qualifierOf?_eq⟩
  have unchanged : ¬ BlankFirst options.framework imports →
      qualifierOf? imports options.framework = qualifierOf? file.imports options.framework ∧
        analyze options { file with imports } = analyze options file := by
    intro usable
    have same := qualifierOf?_congr (blanked.find?_eq usable)
    exact ⟨same, analyze_withImports same⟩
  refine ⟨hidden, unchanged, ⟨fun same blank => ?_, fun none => ?_⟩, ⟨fun same blank => ?_, fun empty => ?_⟩⟩
  · rw [← same, (hidden blank).1]
  · by_cases blank : BlankFirst options.framework imports
    · rw [(hidden blank).1, none blank]
    · exact (unchanged blank).1
  · rw [← same, (hidden blank).2]
  · by_cases blank : BlankFirst options.framework imports
    · rw [(hidden blank).2, empty blank]
    · exact (unchanged blank).2

end Steps

/-- A file with one step, which imports the framework under its own name. -/
def importingFile : SourceFile :=
  Sample.file "importing.go" [
    Sample.stepDecl "smachine" "Importing" "run" "ExecutionContext" [.ret [Sample.onContext "Stop" []]]]

/-- The names of the steps of a file. -/
def stepNames (file : SourceFile) : List String := ((analyze {} file).toOption.getD []).map Step.name

/-- A blank import behind the usable one leaves the step where it was; one in front of it takes the step away. -/
theorem blank_imports_hide_importing :
    let usable : Import := ⟨none, defaultFramework⟩
    let behind := [usable, blankImport defaultFramework]
    let around := [blankImport defaultFramework, usable, blankImport defaultFramework]
    stepNames importingFile = ["run"] ∧
      WithBlanks defaultFramework importingFile.imports behind ∧
      qualifierOf? behind defaultFramework = qualifierOf? importingFile.imports defaultFramework ∧
      analyze {} { importingFile with imports := behind } = analyze {} importingFile ∧
      WithBlanks defaultFramework importingFile.imports around ∧
      qualifierOf? around defaultFramework = none ∧ analyze {} { importingFile with imports := around } = .ok [] := by
  intro usable behind around
  have inBehind : WithBlanks defaultFramework importingFile.imports behind := .keep _ (.blank .nil)
  have inAround : WithBlanks defaultFramework importingFile.imports around := .blank (.keep _ (.blank .nil))
  have usableFirst : ¬ BlankFirst defaultFramework behind := by
    rw [blankFirst_iff]
    decide +kernel
  have blankFirst : BlankFirst defaultFramework around := ⟨[], _, rfl, List.forall_mem_nil _⟩
  have kept := (@blank_imports_hide {} importingFile behind inBehind).2.1 usableFirst
  have hidden := (@blank_imports_hide {} importingFile around inAround).1 blankFirst
  exact ⟨by decide +kernel, inBehind, kept.1, kept.2, inAround, hidden.1, hidden.2⟩

/-- **Blank imports do count**: a blank import in front of the usable one takes the qualifier and the step away. -/
theorem blank_import_counts :
    ¬ ∀ (options : AnalysisOptions) (file : SourceFile) (imports : List Import),
      WithBlanks options.framework file.imports imports →
        qualifierOf? imports options.framework = qualifierOf? file.imports options.framework ∧
          analyze options { file with imports } = analyze options file := by
  intro unseen
  obtain ⟨-, same⟩ := unseen {} importingFile [blankImport defaultFramework, ⟨none, defaultFramework⟩] (.blank (.keep _ .nil))
  have names : stepNames { importingFile with imports := [blankImport defaultFramework, ⟨none, defaultFramework⟩] } =
      stepNames importingFile := by rw [stepNames, same, stepNames]
  revert names
  decide +kernel

end StepChart
