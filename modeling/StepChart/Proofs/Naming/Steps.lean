import Mathlib.Data.List.Nodup
import StepChart.Analysis
import StepChart.Proofs.Naming.Outlines
import StepChart.Proofs.Step.Inner
import StepChart.Proofs.Step.Repeats

/-!
# Steps with numbered inner steps

The steps of a file have numbered inner steps at all depths (`analyze_numbered`), because putting guards
into words changes no name. In a numbered step, the steps inside lie in the slots of the inner steps, so no
two of them have the same name unless they are machines built in place (`Step.Numbered.nodup`).
-/

namespace StepChart

open Syntax Text

namespace Step

/-- What a step was written as. -/
def role (step : Step) : Role :=
  if step.isSubroutine then if step.transitions.isEmpty then .built else .subroutine else .literal

/-- The inner steps have the names of their places, at all depths; only function literals have any. -/
inductive Numbered : Step → Prop
  | intro {step : Step}
      (names : ∀ (index : Nat) (sub : Step), step.subSteps[index]? = some sub → sub.role.Names step.name index sub.name)
      (leaf : step.role ≠ .literal → step.subSteps = [])
      (inside : ∀ sub ∈ step.subSteps, Numbered sub) : Numbered step

end Step

/-! ## From outlines to steps -/

section Wording

variable {wording : Wording}

/-- Adding moves leaves the signature, the inner steps and the flag of a step as they are, and there are transitions
afterwards if there was anything to add. -/
theorem addMoves_ok {step result : Step} {moves : List Move} (worded : wording.addMoves step moves = .ok result)
    {calls : List (Nat × Transition)} (collected : step.Collected calls) :
    result.signature = step.signature ∧ result.subSteps = step.subSteps ∧ result.isSubroutine = step.isSubroutine ∧
      result.transitions.isEmpty = (calls.isEmpty && moves.isEmpty) := by
  induction moves generalizing step calls with
  | nil =>
    cases worded
    simp [collected.isEmpty]
  | cons move moves ih =>
    unfold Wording.addMoves at worded
    split at worded
    · cases worded
    · next transition _ =>
      obtain ⟨signature, subSteps, isSubroutine, empty⟩ := ih worded (collected.addTransition wording.limit transition)
      rw [step.addTransition_eq] at signature subSteps isSubroutine
      refine ⟨signature, subSteps, isSubroutine, ?_⟩
      rw [empty]
      simp

theorem toStep_ok {outline : Outline} {step : Step} (worded : outline.toStep wording = .ok step) :
    Outline.toSteps wording outline.subSteps = .ok step.subSteps ∧ step.name = outline.name ∧
      step.role = outline.role := by
  obtain ⟨signature, moves, subSteps, usages, migrations, isSubroutine⟩ := outline
  unfold Outline.toStep at worded
  split at worded
  · cases worded
  · next steps subs =>
    obtain ⟨same, inner, flag, empty⟩ := addMoves_ok worded (.new rfl rfl)
    refine ⟨by rw [inner]; exact subs, congrArg Signature.name same, ?_⟩
    unfold Step.role Outline.role
    rw [flag, empty]
    rfl

/-- Steps stand at the places of their outlines. -/
theorem toSteps_ok {outlines : List Outline} {steps : List Step} (worded : Outline.toSteps wording outlines = .ok steps)
    {index : Nat} {step : Step} (found : steps[index]? = some step) :
    ∃ outline, outlines[index]? = some outline ∧ outline.toStep wording = .ok step := by
  induction outlines generalizing steps index with
  | nil =>
    cases worded
    cases found
  | cons outline outlines ih =>
    unfold Outline.toSteps at worded
    split at worded
    · cases worded
    · next first wordedFirst =>
      cases rest : Outline.toSteps wording outlines with
      | error fault =>
        rw [rest] at worded
        cases worded
      | ok others =>
        rw [rest] at worded
        cases worded
        cases index with
        | zero =>
          cases found
          exact ⟨outline, rfl, wordedFirst⟩
        | succ index => exact ih rest found

/-- A step is numbered as its outline is. -/
theorem Outline.Numbered.toStep {outline : Outline} (numbered : outline.Numbered) {step : Step}
    (worded : outline.toStep wording = .ok step) : step.Numbered := by
  induction numbered generalizing step with
  | @intro outline names leaf inside ih =>
    obtain ⟨subs, name, role⟩ := toStep_ok worded
    refine .intro (fun index sub found => ?_) (fun other => ?_) fun sub member => ?_
    · obtain ⟨inner, isInner, wordedInner⟩ := toSteps_ok subs found
      obtain ⟨-, nameInner, roleInner⟩ := toStep_ok wordedInner
      rw [roleInner, name, nameInner]
      exact names index inner isInner
    · rw [role] at other
      rw [leaf other, Outline.toSteps] at subs
      exact (Except.ok.inj subs).symm
    · obtain ⟨index, inBounds, rfl⟩ := List.mem_iff_getElem.1 member
      obtain ⟨inner, isInner, wordedInner⟩ := toSteps_ok subs (List.getElem?_eq_getElem inBounds)
      exact ih inner (List.mem_of_getElem? isInner) wordedInner

end Wording

/-! ## Files -/

/-- The identifiers of a file that names of steps are made of are like identifiers. -/
def Syntax.SourceFile.isNamed (file : SourceFile) : Bool :=
  file.decls.all fun decl => isIdentifierLike decl.name && stmtsAll StepChart.isNamed (decl.body.getD [])

theorem recognize?_name {framework : String} {decl : FuncDecl} {signature : Signature}
    (recognized : recognize? framework decl = some signature) : signature.name = decl.name := by
  unfold recognize? at recognized
  split at recognized
  · obtain ⟨_, _, rfl⟩ := Option.map_eq_some_iff.1 recognized
    rfl
  · split at recognized
    · obtain ⟨_, _, rfl⟩ := Option.map_eq_some_iff.1 recognized
      rfl
    · cases recognized

theorem outlineOf?_numbered {framework : String} {decl : FuncDecl}
    (every : stmtsAll isNamed (decl.body.getD []) = true) {outline : Outline}
    (found : outlineOf? framework decl = some outline) :
    outline.Numbered ∧ outline.name = decl.name := by
  obtain ⟨signature, recognized, rfl⟩ := Option.map_eq_some_iff.1 found
  have name := recognize?_name recognized
  cases body : decl.body with
  | none => exact ⟨.leaf rfl, name⟩
  | some body =>
    rw [body] at every
    exact ⟨trace_numbered framework signature every, name⟩

/-- **The steps of a file are numbered**, and no declared step has a dot in its name. -/
theorem analyze_numbered {options : AnalysisOptions} {file : SourceFile} (named : file.isNamed = true)
    {steps : List Step} (analyzed : analyze options file = .ok steps) {step : Step} (member : step ∈ steps) :
    step.Numbered ∧ '.' ∉ step.name.toList := by
  obtain ⟨index, inBounds, rfl⟩ := List.mem_iff_getElem.1 member
  obtain ⟨outline, isOutline, worded⟩ := toSteps_ok analyzed (List.getElem?_eq_getElem inBounds)
  have found := List.mem_of_getElem? isOutline
  unfold outlines at found
  split at found
  · cases found
  · obtain ⟨decl, isDecl, traced⟩ := List.mem_filterMap.1 found
    obtain ⟨like, every⟩ := Bool.and_eq_true_iff.1 (List.all_eq_true.1 named decl isDecl)
    obtain ⟨numbered, name⟩ := outlineOf?_numbered every traced
    obtain ⟨-, sameName, -⟩ := toStep_ok worded
    refine ⟨numbered.toStep worded, ?_⟩
    rw [sameName, name]
    simpa [isIdentifierLike] using (Bool.and_eq_true_iff.1 like).2

/-! ## Steps inside a step -/

namespace Step

/-- The steps of a list that have a number in their names: all but machines that are built in place. -/
def numbered (steps : List Step) : List Step := steps.filter (·.role ≠ .built)

theorem mem_numbered {steps : List Step} {step : Step} : step ∈ numbered steps ↔ step ∈ steps ∧ step.role ≠ .built := by
  simp [numbered]

variable {step other : Step}

/-- A step inside another one is numbered and has the name of its place. -/
theorem Numbered.of_mem_inner (numbered : step.Numbered) (within : other ∈ step.inner) :
    other.Numbered ∧ ∃ parent index, other.role.Names parent index other.name := by
  induction numbered with
  | @intro step names leaf inside ih =>
    obtain ⟨sub, isSub, rfl | deeper⟩ := mem_inner.1 within
    · obtain ⟨index, found⟩ := List.mem_iff_getElem?.1 isSub
      exact ⟨inside other isSub, step.name, index, names index other found⟩
    · exact ih sub isSub deeper

theorem Numbered.role_of_inner (numbered : step.Numbered) (within : other ∈ step.inner) : step.role = .literal := by
  obtain ⟨-, leaf, -⟩ := numbered
  by_contra notLiteral
  obtain ⟨sub, isSub, -⟩ := mem_inner.1 within
  rw [leaf notLiteral] at isSub
  cases isSub

/-- The names of steps inside go on from the name of the step. -/
theorem Numbered.goesOn (numbered : step.Numbered) (within : other ∈ step.inner) (hasNumber : other.role ≠ .built) :
    ∃ rest, other.name.toList = step.name.toList ++ '.' :: rest := by
  induction numbered with
  | @intro step names leaf inside ih =>
    obtain ⟨sub, isSub, rfl | deeper⟩ := mem_inner.1 within
    · obtain ⟨index, found⟩ := List.mem_iff_getElem?.1 isSub
      obtain ⟨rest, same, -⟩ := (names index other found).inSlot hasNumber
      exact ⟨rest, same⟩
    · obtain ⟨index, found⟩ := List.mem_iff_getElem?.1 isSub
      obtain ⟨rest, same⟩ := ih sub isSub deeper
      have names := names index sub found
      rw [(inside sub isSub).role_of_inner deeper] at names
      rw [names.toList_of_literal, List.append_assoc, List.cons_append] at same
      exact ⟨_, same⟩

theorem Numbered.name_ne_empty (numbered : step.Numbered) (within : other ∈ step.inner) (hasNumber : other.role ≠ .built) :
    other.name ≠ "" := by
  intro empty
  obtain ⟨rest, same⟩ := numbered.goesOn within hasNumber
  rw [empty] at same
  simp at same

/-- An inner step and the steps inside it belong to its slot. -/
theorem Numbered.inSlot (numbered : step.Numbered) {index : Nat} {sub : Step} (found : step.subSteps[index]? = some sub)
    (within : other ∈ sub :: sub.inner) (hasNumber : other.role ≠ .built) : InSlot step.name index other.name := by
  obtain ⟨names, leaf, inside⟩ := numbered
  have names := names index sub found
  have numberedSub := inside sub (List.mem_of_getElem? found)
  rcases List.mem_cons.1 within with rfl | deeper
  · exact names.inSlot hasNumber
  · obtain ⟨rest, same⟩ := numberedSub.goesOn deeper hasNumber
    rw [numberedSub.role_of_inner deeper] at names
    exact names.inSlot_of_literal same (.inr ⟨rest, rfl⟩)

/-- **Numbered names are distinct** inside a step. -/
theorem Numbered.nodup (numbered : step.Numbered) : ((Step.numbered step.inner).map name).Nodup := by
  induction numbered with
  | @intro step names leaf inside ih =>
    have whole : step.Numbered := .intro names leaf inside
    have split : (Step.numbered step.inner).map name =
        step.subSteps.flatMap fun sub => (Step.numbered (sub :: sub.inner)).map name := by
      rw [inner_eq, innerAll_eq_flatMap]
      simp only [Step.numbered, List.filter_flatMap, List.map_flatMap]
    rw [split, List.nodup_flatMap]
    refine ⟨fun sub isSub => ?_, ?_⟩
    · by_cases hasNumber : sub.role = .built
      · simpa [Step.numbered, hasNumber] using ih sub isSub
      · have own : Step.numbered (sub :: sub.inner) = sub :: Step.numbered sub.inner := by
          simp [Step.numbered, hasNumber]
        rw [own, List.map_cons, List.nodup_cons]
        refine ⟨fun member => ?_, ih sub isSub⟩
        -- The names inside are longer.
        obtain ⟨other, isOther, same⟩ := List.mem_map.1 member
        obtain ⟨within, otherNumber⟩ := mem_numbered.1 isOther
        obtain ⟨rest, longer⟩ := (inside sub isSub).goesOn within otherNumber
        have lengths := congrArg List.length longer
        rw [same, List.length_append, List.length_cons] at lengths
        omega
    · rw [List.pairwise_iff_getElem]
      intro first second inFirst inSecond before name memberFirst memberSecond
      obtain ⟨one, isOne, rfl⟩ := List.mem_map.1 memberFirst
      obtain ⟨two, isTwo, same⟩ := List.mem_map.1 memberSecond
      obtain ⟨withinOne, numberOne⟩ := mem_numbered.1 isOne
      obtain ⟨withinTwo, numberTwo⟩ := mem_numbered.1 isTwo
      have slotOne := whole.inSlot (List.getElem?_eq_getElem inFirst) withinOne numberOne
      have slotTwo := whole.inSlot (List.getElem?_eq_getElem inSecond) withinTwo numberTwo
      rw [same] at slotTwo
      have := slotOne.unique slotTwo
      omega

/-- A numbered name is not that of a machine built in place. -/
theorem Numbered.ne_built {first second : Step} {inFirst inSecond : Step} (numberedFirst : first.Numbered)
    (numberedSecond : second.Numbered) (withinFirst : inFirst ∈ first.inner) (withinSecond : inSecond ∈ second.inner)
    (hasNumber : inFirst.role ≠ .built) (isBuilt : inSecond.role = .built) : inSecond.name ≠ inFirst.name := by
  intro same
  obtain ⟨-, parent, index, names⟩ := numberedFirst.of_mem_inner withinFirst
  obtain ⟨-, _, _, built⟩ := numberedSecond.of_mem_inner withinSecond
  rw [isBuilt] at built
  obtain ⟨type, isName⟩ := built
  obtain ⟨last, isLast, digit⟩ := names.getLast?_isDigit hasNumber
  rw [← same, isName, getLast?_builtName] at isLast
  cases isLast
  exact absurd digit (by decide)

end Step

end StepChart
