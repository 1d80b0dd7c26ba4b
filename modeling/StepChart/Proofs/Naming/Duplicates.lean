import StepChart.Proofs.Machine.Apart
import StepChart.Proofs.Naming.InnerSteps
import StepChart.Proofs.Syntax.Samples
import StepChart.Text.Identifier

/-!
# What is marked as a duplicate

In files that declare no step twice, names of declared steps and numbered names are all different, so that nothing
but a machine built in place can come under a name that is taken. It does whenever the same machine is built in two
places, be they in two steps or in two branches of one: `marked_iff_built_twice` says that this, and nothing else,
is what the mark of a duplicate then stands for.
-/

namespace StepChart

open Syntax Text

/-! ## Steps of a file -/

section Wording

variable {wording : Wording}

/-- Adding moves changes nothing about a step but its transitions, the place of the repeat and its handlers. -/
theorem addMoves_eq {step result : Step} {moves : List Move} (worded : wording.addMoves step moves = .ok result) :
    result =
      { step with
        transitions := result.transitions
        repeatIndex? := result.repeatIndex?
        migrations := result.migrations } := by
  induction moves generalizing step with
  | nil =>
    cases worded
    cases result
    rfl
  | cons move moves ih =>
    unfold Wording.addMoves at worded
    split at worded
    · cases worded
    · next transition _ =>
      have onward := ih worded
      rw [step.addTransition_eq] at onward
      exact onward

/-- A step has the signature of its outline, and is not marked. -/
theorem toStep_unmarked {outline : Outline} {step : Step} (worded : outline.toStep wording = .ok step) :
    step.signature = outline.signature ∧ step.duplicate = false := by
  obtain ⟨signature, moves, subSteps, usages, migrations, isSubroutine⟩ := outline
  unfold Outline.toStep at worded
  split at worded
  · cases worded
  · rw [addMoves_eq worded]
    exact ⟨rfl, rfl⟩

mutual

theorem unmarked_toStep : (outline : Outline) → {step : Step} → outline.toStep wording = .ok step →
    ∀ other ∈ step :: step.inner, other.duplicate = false
  | ⟨signature, moves, subSteps, usages, migrations, isSubroutine⟩, step, worded, other, member => by
    rcases List.mem_cons.1 member with rfl | within
    · exact (toStep_unmarked worded).2
    · rw [Step.inner_eq] at within
      exact unmarked_toSteps subSteps (toStep_ok worded).1 other within

theorem unmarked_toSteps : (outlines : List Outline) → {steps : List Step} → Outline.toSteps wording outlines = .ok steps →
    ∀ other ∈ Step.innerAll steps, other.duplicate = false
  | [], steps, worded, other, member => by
    cases worded
    cases member
  | outline :: rest, steps, worded, other, member => by
    unfold Outline.toSteps at worded
    split at worded
    · cases worded
    · next first wordedFirst =>
      cases wordedRest : Outline.toSteps wording rest with
      | error fault =>
        rw [wordedRest] at worded
        cases worded
      | ok others =>
        rw [wordedRest] at worded
        cases worded
        rw [Step.innerAll, ← List.cons_append] at member
        rcases List.mem_append.1 member with inFirst | inRest
        · exact unmarked_toStep outline wordedFirst other inFirst
        · exact unmarked_toSteps rest wordedRest other inRest

end

theorem map_signature_toSteps {outlines : List Outline} {steps : List Step}
    (worded : Outline.toSteps wording outlines = .ok steps) :
    steps.map Step.signature = outlines.map Outline.signature := by
  induction outlines generalizing steps with
  | nil =>
    cases worded
    rfl
  | cons outline rest ih =>
    unfold Outline.toSteps at worded
    split at worded
    · cases worded
    · next first wordedFirst =>
      cases wordedRest : Outline.toSteps wording rest with
      | error fault =>
        rw [wordedRest] at worded
        cases worded
      | ok others =>
        rw [wordedRest] at worded
        cases worded
        rw [List.map_cons, List.map_cons, (toStep_unmarked wordedFirst).1, ih wordedRest]

end Wording

/-- The signatures of the functions that are recognized as steps. -/
def Syntax.SourceFile.recognized (package : String) (file : SourceFile) : List Signature :=
  match qualifierOf? file.imports package with
  | none => []
  | some framework => file.decls.filterMap (recognize? framework)

theorem signature_outlineOf? (framework : String) (decl : FuncDecl) :
    (outlineOf? framework decl).map Outline.signature = recognize? framework decl := by
  unfold outlineOf?
  cases recognize? framework decl with
  | none => rfl
  | some signature => cases decl.body <;> rfl

/-- The steps of a file are the recognized functions, one for each. -/
theorem map_signature_analyze {options : AnalysisOptions} {file : SourceFile} {steps : List Step}
    (analyzed : analyze options file = .ok steps) :
    steps.map Step.signature = file.recognized options.framework := by
  rw [map_signature_toSteps analyzed]
  unfold outlines SourceFile.recognized
  cases qualifierOf? file.imports options.framework with
  | none => rfl
  | some framework => simp only [List.map_filterMap, signature_outlineOf?]

/-! ## Names of declared steps -/

/-- The names of a file are like identifiers, and those of its functions have no other characters than identifiers
have. -/
def Syntax.SourceFile.isSpelled (file : SourceFile) : Bool :=
  file.isNamed && file.decls.all fun decl => decl.name.toList.all isIdentifierPart

/-- What is known of a declared step of a file whose names are spelled as they have to be. -/
structure Step.Spelled (step : Step) : Prop extends step.Declared where
  literal : step.role = .literal
  unbraced : ∀ type, step.name ≠ builtName type

theorem name_ne_builtName {name : String} (spelled : name.toList.all isIdentifierPart = true) (type : Option Expr) :
    name ≠ builtName type := by
  rintro rfl
  have last : '\x7d' ∈ (builtName type).toList := List.mem_of_getLast? (getLast?_builtName type)
  have allowed : isIdentifierPart '\x7d' = true := List.all_eq_true.1 spelled _ last
  exact absurd allowed (by decide)

theorem analyze_spelled {options : AnalysisOptions} {file : SourceFile} (spelled : file.isSpelled = true)
    {steps : List Step} (analyzed : analyze options file = .ok steps) {step : Step} (member : step ∈ steps) :
    step.Spelled := by
  obtain ⟨named, names⟩ := Bool.and_eq_true_iff.1 spelled
  obtain ⟨numbered, plain⟩ := analyze_numbered named analyzed member
  obtain ⟨index, inBounds, rfl⟩ := List.mem_iff_getElem.1 member
  obtain ⟨outline, isOutline, worded⟩ := toSteps_ok analyzed (List.getElem?_eq_getElem inBounds)
  obtain ⟨-, name, role⟩ := toStep_ok worded
  have found := List.mem_of_getElem? isOutline
  unfold outlines at found
  split at found
  · cases found
  · next framework _ =>
    obtain ⟨decl, isDecl, traced⟩ := List.mem_filterMap.1 found
    obtain ⟨signature, recognized, rfl⟩ := Option.map_eq_some_iff.1 traced
    refine ⟨⟨numbered, plain⟩, ?_, ?_⟩
    · rw [role]
      cases decl.body with
      | none => rfl
      | some body => exact (outline_numbers framework _).role signature body
    · have declared : steps[index].name = decl.name := by
        rw [name, ← recognize?_name recognized]
        cases decl.body <;> rfl
      rw [declared]
      exact name_ne_builtName (List.all_eq_true.1 names decl isDecl)

namespace Step.Spelled

variable {first second other : Step}

/-- No step inside a step has the name of a declared one. -/
theorem name_ne_inner (spelledFirst : first.Spelled) (spelledSecond : second.Spelled) (within : other ∈ second.inner) :
    first.name ≠ other.name := by
  by_cases isBuilt : other.role = .built
  · obtain ⟨-, _, _, names⟩ := spelledSecond.numbered.of_mem_inner within
    rw [isBuilt] at names
    obtain ⟨type, isName⟩ := names
    rw [isName]
    exact spelledFirst.unbraced type
  · exact spelledFirst.ne_inner spelledSecond.toDeclared within isBuilt

/-- Steps of two declared ones have different names, unless both are built in place. -/
theorem apart (spelledFirst : first.Spelled) (spelledSecond : second.Spelled) (different : first.name ≠ second.name)
    {inFirst inSecond : Step} (isFirst : inFirst ∈ first :: first.inner) (isSecond : inSecond ∈ second :: second.inner) :
    Machine.Apart (fun step => step.role ≠ .built) inFirst inSecond := by
  intro either
  rcases List.mem_cons.1 isFirst with rfl | withinFirst
  · rcases List.mem_cons.1 isSecond with rfl | withinSecond
    · exact different
    · exact spelledFirst.name_ne_inner spelledSecond withinSecond
  · rcases List.mem_cons.1 isSecond with rfl | withinSecond
    · exact (spelledSecond.name_ne_inner spelledFirst withinFirst).symm
    · rcases either with numberFirst | numberSecond
      · exact (spelledSecond.inner_ne_inner spelledFirst.toDeclared different.symm withinSecond withinFirst
          numberFirst).symm
      · exact spelledFirst.inner_ne_inner spelledSecond.toDeclared different withinFirst withinSecond numberSecond

end Step.Spelled

/-- Only machines built in place can find their names taken. -/
theorem undisturbed_innerAll {roots : List Step} (spelled : ∀ root ∈ roots, root.Spelled)
    (distinct : (roots.map Step.name).Nodup) :
    Undisturbed (fun step => step.role ≠ .built) [] (Step.innerAll roots) := by
  rw [Step.innerAll_eq_flatMap]
  refine ⟨fun step member isBuilt => ?_, List.pairwise_flatMap.2 ⟨fun root isRoot => ?_, ?_⟩, fun _ _ _ =>
    List.not_mem_nil⟩
  · obtain ⟨root, isRoot, inRoot⟩ := List.mem_flatMap.1 member
    rcases List.mem_cons.1 inRoot with rfl | within
    · rw [(spelled step isRoot).literal] at isBuilt
      exact absurd (by decide) isBuilt
    · exact (spelled root isRoot).separate.leaf step within isBuilt
  · refine List.pairwise_cons.2 ⟨fun other within _ => ?_, (spelled root isRoot).separate.apart⟩
    exact (spelled root isRoot).name_ne_inner (spelled root isRoot) within
  · refine List.Pairwise.imp_of_mem (fun {first second} inFirst inSecond different => ?_) (List.pairwise_map.1 distinct)
    intro one isOne two isTwo
    exact (spelled first inFirst).apart (spelled second inSecond) different isOne isTwo

/-! ## Marks -/

/-- The names of the machines that are built in place in declared steps, as often as they are. -/
def builtNames (steps : List Step) : List String :=
  ((Step.innerAll (wanted false steps)).filter (·.role = .built)).map Step.name

/-- Among steps that are apart unless they are built in place, a name that occurs twice is that of a machine, and
occurs as often as this is built. -/
theorem Undisturbed.two_le_count {visits : List Step}
    (undisturbed : Undisturbed (fun step => step.role ≠ .built) [] visits) (name : String) :
    2 ≤ (visits.map Step.name).count name ↔ 2 ≤ ((visits.filter (·.role = .built)).map Step.name).count name := by
  constructor
  · intro twice
    have isBuilt : ∀ step ∈ visits, step.name = name → step.role = .built := by
      intro step member named
      by_contra numbered
      rw [← named, undisturbed.count_name member numbered] at twice
      omega
    have counts : ((visits.filter (·.role = .built)).map Step.name).count name = (visits.map Step.name).count name := by
      rw [List.count_eq_countP, List.count_eq_countP, List.countP_map, List.countP_map, List.countP_filter]
      refine List.countP_congr fun step member => ?_
      simpa using isBuilt step member
    rwa [counts]
  · intro twice
    exact Nat.le_trans twice ((List.filter_sublist.map Step.name).count_le name)

/-- A machine that holds the first of each name marks those machines that are built twice, and no other step. -/
theorem Machine.Records.marked {machine : Machine} {visits : List Step} (records : machine.Records visits)
    (undisturbed : Undisturbed (fun step => step.role ≠ .built) [] visits)
    (unmarked : ∀ visit ∈ visits, visit.duplicate = false) {step : Step} (member : step ∈ machine.steps) :
    (step.duplicate = true ↔ 2 ≤ ((visits.filter (·.role = .built)).map Step.name).count step.name) ∧
      (step.duplicate = true → step.role = .built) := by
  have recorded := (records.mem_steps step).1 member
  have twice := recorded.duplicate_iff unmarked
  refine ⟨twice.trans (undisturbed.two_le_count step.name), fun isMarked => ?_⟩
  obtain ⟨earlier, visit, later, rfl, -, rfl⟩ := recorded
  have role : (visit.recorded earlier later).role = visit.role := rfl
  rw [role]
  by_contra numbered
  have once := undisturbed.count_name (List.mem_append_right _ List.mem_cons_self) numbered
  have name : (visit.recorded earlier later).name = visit.name := rfl
  have twice := twice.1 isMarked
  rw [name, once] at twice
  omega

/-! ## Files -/

section Files

variable {options : AnalysisOptions} {files : List SourceFile} {entries : List (String × List Step)}

theorem map_signature_entries (analyzed : List.Forall₂ (fun file entry => analyze options file = .ok entry.2) files entries) :
    (entries.flatMap (·.2)).map Step.signature = files.flatMap (·.recognized options.framework) := by
  induction analyzed with
  | nil => rfl
  | cons first _ ih => rw [List.flatMap_cons, List.flatMap_cons, List.map_append, ih, map_signature_analyze first]

theorem exists_file (analyzed : List.Forall₂ (fun file entry => analyze options file = .ok entry.2) files entries)
    {step : Step} (member : step ∈ entries.flatMap (·.2)) :
    ∃ file ∈ files, ∃ steps, analyze options file = .ok steps ∧ step ∈ steps := by
  induction analyzed with
  | nil => cases member
  | @cons file entry files entries first _ ih =>
    rcases List.mem_append.1 member with here | later
    · exact ⟨file, List.mem_cons_self, entry.2, first, here⟩
    · obtain ⟨other, isFile, found⟩ := ih later
      exact ⟨other, List.mem_cons_of_mem _ isFile, found⟩

/-- Steps of one receiver type have different names if no two recognized functions share both. -/
theorem nodup_ofType {steps : List Step}
    (distinct : ((steps.map Step.signature).map fun signature => (signature.receiverType, signature.name)).Nodup)
    (receiverType : String) : ((wanted false (Graph.ofType receiverType steps)).map Step.name).Nodup := by
  rw [List.map_map] at distinct
  have ofType := (List.pairwise_map.1 distinct).filter (·.signature.receiverType == receiverType)
  refine List.pairwise_map.2 (List.Pairwise.filter _ (List.Pairwise.imp_of_mem ?_ ofType))
  intro first second inFirst inSecond differ same
  have typeFirst : first.signature.receiverType = receiverType := by simpa using (List.mem_filter.1 inFirst).2
  have typeSecond : second.signature.receiverType = receiverType := by simpa using (List.mem_filter.1 inSecond).2
  exact differ (Prod.ext (typeFirst.trans typeSecond.symm) same)

/-- **A mark of a duplicate stands for a machine that is built in place twice**, if no two recognized functions of
the files have the same receiver type and name: the marked steps of a machine of the graph are those machines, and so
no step is marked if and only if none is built twice in the steps of a receiver type. -/
theorem marked_iff_built_twice (spelled : ∀ file ∈ files, file.isSpelled = true)
    (distinct : ((files.flatMap (·.recognized options.framework)).map fun signature =>
      (signature.receiverType, signature.name)).Nodup)
    (analyzed : List.Forall₂ (fun file entry => analyze options file = .ok entry.2) files entries) {machine : Machine}
    (member : machine ∈ (({} : Graph).registerFiles entries).machines) :
    let built := builtNames (Graph.ofType machine.receiverType (entries.flatMap (·.2)))
    (∀ step ∈ machine.steps, step.duplicate = true ↔ 2 ≤ built.count step.name) ∧
    (∀ step ∈ machine.steps, step.duplicate = true → step.role = .built) ∧
    ((∀ step ∈ machine.steps, step.duplicate = false) ↔ built.Nodup) := by
  intro built
  let roots := wanted false (Graph.ofType machine.receiverType (entries.flatMap (·.2)))
  have isGiven : ∀ root ∈ roots, root ∈ entries.flatMap (·.2) := fun root isRoot =>
    List.mem_of_mem_filter (List.mem_of_mem_filter isRoot)
  have spelledRoots : ∀ root ∈ roots, root.Spelled := by
    intro root isRoot
    obtain ⟨file, isFile, steps, worded, isStep⟩ := exists_file analyzed (isGiven root isRoot)
    exact analyze_spelled (spelled file isFile) worded isStep
  have unmarked : ∀ step ∈ Step.innerAll roots, step.duplicate = false := by
    intro step inside
    rw [Step.innerAll_eq_flatMap] at inside
    obtain ⟨root, isRoot, inRoot⟩ := List.mem_flatMap.1 inside
    obtain ⟨file, -, steps, worded, isStep⟩ := exists_file analyzed (isGiven root isRoot)
    refine unmarked_toSteps _ worded step ?_
    rw [Step.innerAll_eq_flatMap]
    exact List.mem_flatMap.2 ⟨root, isStep, inRoot⟩
  rw [← map_signature_entries analyzed] at distinct
  have undisturbed := undisturbed_innerAll spelledRoots (nodup_ofType distinct machine.receiverType)
  have records : machine.Records (Step.innerAll roots) := by
    have made := undisturbed.records machine.receiverType machine.output machine.sequence
    rw [(Graph.holds_nil.registerFiles entries).registered machine member, Machine.register_eq_addGiven]
    exact made
  have marked := fun step (isStored : step ∈ machine.steps) => records.marked undisturbed unmarked isStored
  refine ⟨fun step isStored => (marked step isStored).1, fun step isStored => (marked step isStored).2, ?_⟩
  rw [List.nodup_iff_count_le_one]
  constructor
  · intro noMark name
    by_contra more
    have twice : 2 ≤ built.count name := Nat.lt_of_not_le more
    have seen : name ∈ (Step.innerAll roots).map Step.name :=
      (List.filter_sublist.map Step.name).subset (List.count_pos_iff.1 (Nat.lt_of_lt_of_le Nat.two_pos twice))
    obtain ⟨step, isStored, rfl⟩ := List.mem_map.1 (records.mem_names.2 seen)
    have isMarked := ((marked step isStored).1).2 twice
    rw [noMark step isStored] at isMarked
    cases isMarked
  · intro once step isStored
    rw [Bool.eq_false_iff, Ne, (marked step isStored).1]
    exact Nat.not_le_of_lt (Nat.lt_succ_of_le (once step.name))

end Files

/-- A file with two steps, which both replace the machine by one that is built in place. -/
def replacingFile : SourceFile :=
  let replacing (name : String) : FuncDecl :=
    Sample.stepDecl "smachine" "Machine" name "ExecutionContext" [
      .ret [Sample.onContext "ReplaceWith" [Sample.newMachine "Next"]]]
  Sample.file "machine.go" [replacing "first", replacing "second"]

/-- The steps of the file. -/
def replacingSteps : List Step := (analyze {} replacingFile).toOption.getD []

/-- The only machine of the file. -/
def replacingMachine : Machine :=
  ((({} : Graph).registerFiles [("machine", replacingSteps)]).machines.head?).getD default

theorem spelled_replacing : ∀ file ∈ [replacingFile], file.isSpelled = true := by
  decide +kernel

theorem distinct_replacing : (([replacingFile].flatMap (·.recognized defaultFramework)).map fun signature =>
    (signature.receiverType, signature.name)).Nodup := by
  decide +kernel

theorem analyzed_replacing : List.Forall₂ (fun file (entry : String × List Step) => analyze {} file = .ok entry.2)
    [replacingFile] [("machine", replacingSteps)] :=
  .cons rfl .nil

theorem mem_replacing : replacingMachine ∈ (({} : Graph).registerFiles [("machine", replacingSteps)]).machines :=
  List.mem_of_head? rfl

/-- The machine is built twice, and this is what is marked. -/
theorem marked_iff_built_twice_replacing :
    (∀ step ∈ replacingMachine.steps, step.duplicate = true ↔ 2 ≤ ["Next\x7b\x7d", "Next\x7b\x7d"].count step.name) ∧
      replacingMachine.names = ["Next\x7b\x7d", "first", "second"] := by
  have built : builtNames (Graph.ofType replacingMachine.receiverType ([("machine", replacingSteps)].flatMap (·.2))) =
      ["Next\x7b\x7d", "Next\x7b\x7d"] := by decide +kernel
  have names : replacingMachine.names = ["Next\x7b\x7d", "first", "second"] := by decide +kernel
  obtain ⟨marked, -⟩ := marked_iff_built_twice spelled_replacing distinct_replacing analyzed_replacing mem_replacing
  rw [built] at marked
  exact ⟨marked, names⟩

/-- A step may be marked although no two functions have the same receiver type and name. -/
theorem marked_though_declared_once : ¬ ∀ (files : List SourceFile) (entries : List (String × List Step)),
    (∀ file ∈ files, file.isSpelled = true) →
    ((files.flatMap (·.recognized defaultFramework)).map fun signature =>
      (signature.receiverType, signature.name)).Nodup →
    List.Forall₂ (fun file entry => analyze {} file = .ok entry.2) files entries →
    ∀ machine ∈ (({} : Graph).registerFiles entries).machines, ∀ step ∈ machine.steps, step.duplicate = false := by
  intro unmarked
  have isMarked : ¬ ∀ step ∈ replacingMachine.steps, step.duplicate = false := by decide +kernel
  exact isMarked (unmarked _ _ spelled_replacing distinct_replacing analyzed_replacing _ mem_replacing)

end StepChart
