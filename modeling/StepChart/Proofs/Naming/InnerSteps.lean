import StepChart.Proofs.Machine.Graph
import StepChart.Proofs.Naming.Steps
import StepChart.Proofs.Syntax.Samples

/-!
# Inner steps are found under their names

When the steps of a file are registered and their handlers spread, each numbered inner step is stored under
its own name, and whatever refers to it by this name is led to it: numbered names are distinct, no declared
step and no machine built in place has one, and so none of them is taken when its turn comes.
`inner_steps_found` says this for all machines of the file.
-/

namespace StepChart

open Syntax Text

/-! ## Declared steps -/

/-- What is known of a declared step: its inner steps are numbered, and its name has no dot. -/
structure Step.Declared (step : Step) : Prop where
  numbered : step.Numbered
  plain : '.' ∉ step.name.toList

namespace Step.Declared

variable {step other : Step}

theorem ne_inner {first second : Step} (declaredFirst : first.Declared) (declaredSecond : second.Declared)
    (within : other ∈ second.inner) (hasNumber : other.role ≠ .built) : first.name ≠ other.name := by
  intro same
  obtain ⟨rest, name⟩ := declaredSecond.numbered.goesOn within hasNumber
  apply declaredFirst.plain
  rw [same, name]
  simp

/-- The name of a declared step is what stands before the first dot in the names that go on from it. -/
theorem takeWhile_name (declared : step.Declared) (rest : List Char) :
    (step.name.toList ++ '.' :: rest).takeWhile (· != '.') = step.name.toList := by
  rw [List.takeWhile_append_of_pos, List.takeWhile_cons_of_neg (by simp), List.append_nil]
  intro c member
  have notDot : c ≠ '.' := fun isDot => declared.plain (isDot ▸ member)
  simpa using notDot

/-- Numbered names inside declared steps with different names are different. -/
theorem inner_ne_inner {first second inFirst inSecond : Step} (declaredFirst : first.Declared)
    (declaredSecond : second.Declared) (different : first.name ≠ second.name) (withinFirst : inFirst ∈ first.inner)
    (withinSecond : inSecond ∈ second.inner) (hasNumber : inSecond.role ≠ .built) : inFirst.name ≠ inSecond.name := by
  intro same
  by_cases isBuilt : inFirst.role = .built
  · exact declaredSecond.numbered.ne_built declaredFirst.numbered withinSecond withinFirst hasNumber isBuilt same
  · obtain ⟨restFirst, nameFirst⟩ := declaredFirst.numbered.goesOn withinFirst isBuilt
    obtain ⟨restSecond, nameSecond⟩ := declaredSecond.numbered.goesOn withinSecond hasNumber
    apply different
    rw [← String.toList_inj, ← declaredFirst.takeWhile_name restFirst, ← declaredSecond.takeWhile_name restSecond,
      ← nameFirst, ← nameSecond, same]

/-- Inside a declared step, numbered steps have names of their own. -/
theorem separate (declared : step.Declared) : Machine.Separate (fun inner => inner.role ≠ .built) step := by
  refine ⟨fun inner within isBuilt => ?_, fun inner within hasNumber => ?_, ?_⟩
  · obtain ⟨-, leaf, -⟩ := (declared.numbered.of_mem_inner within).1
    apply leaf
    rw [not_not.1 isBuilt]
    decide
  · exact declared.ne_inner declared within hasNumber
  · have distinct := declared.numbered.nodup
    rw [List.Nodup, List.pairwise_map, Step.numbered, List.pairwise_filter] at distinct
    refine List.Pairwise.imp_of_mem (fun {first second} inFirst inSecond differ either same => ?_) distinct
    by_cases builtFirst : first.role = .built
    · have hasNumber : second.role ≠ .built := either.resolve_left (not_not.2 builtFirst)
      exact declared.numbered.ne_built declared.numbered inSecond inFirst hasNumber builtFirst same
    · by_cases builtSecond : second.role = .built
      · exact declared.numbered.ne_built declared.numbered inFirst inSecond builtFirst builtSecond same.symm
      · exact differ (by simpa using builtFirst) (by simpa using builtSecond) same

end Step.Declared

/-! ## Machines -/

namespace Machine

theorem mem_of_mem_taken {machine : Machine} {steps : List Step} {root : Step} (taken : root ∈ machine.taken steps) :
    root ∈ steps := by
  induction steps generalizing machine with
  | nil => cases taken
  | cons step rest ih =>
    unfold Machine.taken at taken
    split at taken
    · rcases List.mem_cons.1 taken with rfl | later
      · exact List.mem_cons_self
      · exact List.mem_cons_of_mem _ (ih later)
    · exact List.mem_cons_of_mem _ (ih taken)

variable {machine : Machine} {steps : List Step}

/-- Numbered steps inside one declared step and all steps of another one have different names. -/
theorem pairwise_taken (declared : ∀ step ∈ steps, step.Declared) :
    (machine.taken steps).Pairwise fun first second => ∀ other ∈ second.inner, other.role ≠ .built →
      ∀ before ∈ first :: first.inner, before.name ≠ other.name := by
  have distinct := (taken_names machine steps).2
  rw [List.Nodup, List.pairwise_map] at distinct
  refine List.Pairwise.imp_of_mem (fun {first second} inFirst inSecond different => ?_) distinct
  have declaredFirst := declared first (mem_of_mem_taken inFirst)
  have declaredSecond := declared second (mem_of_mem_taken inSecond)
  intro other within hasNumber before isBefore
  rcases List.mem_cons.1 isBefore with rfl | inside
  · exact declaredFirst.ne_inner declaredSecond within hasNumber
  · exact declaredFirst.inner_ne_inner declaredSecond different inside within hasNumber

/-- A numbered inner step of some declared steps is inside one of them. -/
theorem exists_root {roots : List Step} {sub : Step} (member : sub ∈ Step.numbered (roots.flatMap Step.inner)) :
    ∃ root ∈ roots, sub ∈ root.inner ∧ sub.role ≠ .built := by
  obtain ⟨isInner, hasNumber⟩ := Step.mem_numbered.1 member
  obtain ⟨root, isRoot, inRoot⟩ := List.mem_flatMap.1 isInner
  exact ⟨root, isRoot, inRoot, hasNumber⟩

/-- Numbered inner steps are stored when their declared steps are registered in a machine without steps. -/
theorem register_keeps_numbered (declared : ∀ step ∈ steps, step.Declared) (noSteps : machine.names = []) {sub : Step}
    (member : sub ∈ Step.numbered ((machine.taken steps).flatMap Step.inner)) : (machine.register steps).Keeps sub := by
  obtain ⟨root, isRoot, inRoot, hasNumber⟩ := exists_root member
  refine register_keeps (fun root isRoot => ?_) (pairwise_taken declared) (fun _ _ _ _ _ => ?_) root isRoot sub inRoot
    hasNumber
  · exact (declared root (mem_of_mem_taken isRoot)).separate
  · rw [noSteps]
    exact List.not_mem_nil

/-- Numbered names inside the declared steps of a machine are distinct. -/
theorem nodup_taken_inner (declared : ∀ step ∈ steps, step.Declared) :
    ((Step.numbered ((machine.taken steps).flatMap Step.inner)).map Step.name).Nodup := by
  have split : (Step.numbered ((machine.taken steps).flatMap Step.inner)).map Step.name =
      (machine.taken steps).flatMap fun root => (Step.numbered root.inner).map Step.name := by
    simp only [Step.numbered, List.filter_flatMap, List.map_flatMap]
  rw [split, List.nodup_flatMap]
  refine ⟨fun root isRoot => (declared root (mem_of_mem_taken isRoot)).numbered.nodup, ?_⟩
  refine (pairwise_taken declared).imp fun {first second} differ name inFirst inSecond => ?_
  obtain ⟨before, isBefore, rfl⟩ := List.mem_map.1 inFirst
  obtain ⟨other, isOther, same⟩ := List.mem_map.1 inSecond
  obtain ⟨within, hasNumber⟩ := Step.mem_numbered.1 isOther
  exact differ other within hasNumber before (List.mem_cons_of_mem _ (Step.mem_numbered.1 isBefore).1) same.symm

/-- A stored step is found after propagation, with its transitions but for the names looked up. -/
theorem Keeps.step?_propagate {step : Step} (keeps : machine.Keeps step) :
    ∃ stored, machine.propagate.step? step.name = some stored ∧ stored.kind = step.kind ∧
      stored.isSubroutine = step.isSubroutine ∧
      stored.transitions.map Transition.unresolved = step.transitions.map Transition.unresolved := by
  obtain ⟨original, isOriginal, core⟩ := keeps
  obtain ⟨stored, isStored, bare⟩ := exists_mem_propagate isOriginal
  have signature : stored.signature = step.signature :=
    (congrArg (·.signature) bare).trans (congrArg (·.signature) core)
  have flag : stored.isSubroutine = step.isSubroutine :=
    (congrArg (·.isSubroutine) bare).trans (congrArg (·.isSubroutine) core)
  have transitions : original.transitions = step.transitions := congrArg (·.transitions) core
  refine ⟨stored, ?_, congrArg Signature.kind signature, flag, ?_⟩
  · have name : stored.name = step.name := congrArg Signature.name signature
    rw [← name]
    exact step?_name isStored
  · rw [transitions_of_bare bare, List.map_map, transitions]
    rfl

end Machine

/-! ## Files -/

/-- Numbered inner steps of the declared steps that a machine of the file has taken in: they are numbered
at all depths; their names are distinct, and different from those of declared steps and of machines built in
place; each is stored under its name; and transitions that have its name lead to it. -/
theorem inner_steps_found (options : AnalysisOptions) (file : SourceFile) (named : file.isNamed = true)
    (steps : List Step) (analyzed : analyze options file = .ok steps) (output : String) (machine : Machine)
    (member : machine ∈ (({} : Graph).addSteps output steps).propagate.machines) :
    let roots := machine.blank.taken (Graph.ofType machine.receiverType steps)
    let inner := Step.numbered (roots.flatMap Step.inner)
    (∀ root ∈ roots, root.Numbered) ∧
    (inner.map Step.name).Nodup ∧
    (∀ sub ∈ inner, ∀ step ∈ steps, step.name ≠ sub.name ∧
      ∀ built ∈ step.inner, built.role = .built → built.name ≠ sub.name) ∧
    (∀ sub ∈ inner, ∃ stored, machine.step? sub.name = some stored ∧ stored.kind = sub.kind ∧
      stored.isSubroutine = sub.isSubroutine ∧
      stored.transitions.map Transition.unresolved = sub.transitions.map Transition.unresolved) ∧
    (∀ step ∈ machine.steps, ∀ transition ∈ step.transitions, ∀ sub ∈ inner,
      (transition.destination = sub.name → transition.targets.destination = some sub.name) ∧
      (transition.resumption = sub.name → transition.targets.resumption = some sub.name) ∧
      (transition.migration = sub.name → transition.targets.migration = some sub.name)) := by
  intro roots inner
  obtain ⟨original, isOriginal, rfl⟩ := List.mem_map.1 member
  have declared : ∀ step ∈ steps, step.Declared := by
    intro step isStep
    obtain ⟨numbered, plain⟩ := analyze_numbered named analyzed isStep
    exact ⟨numbered, plain⟩
  have declaredOfType : ∀ step ∈ Graph.ofType original.receiverType steps, step.Declared := fun step isStep =>
    declared step (List.mem_of_mem_filter isStep)
  have declaredRoots : ∀ root ∈ roots, root.Declared := fun root isRoot =>
    declaredOfType root (Machine.mem_of_mem_taken isRoot)
  have kept : ∀ sub ∈ inner, original.Keeps sub := by
    intro sub isSub
    rw [Graph.addSteps_eq_register isOriginal]
    exact Machine.register_keeps_numbered declaredOfType rfl isSub
  refine ⟨fun root isRoot => (declaredRoots root isRoot).numbered, Machine.nodup_taken_inner declaredOfType, ?_, ?_, ?_⟩
  · intro sub isSub step isStep
    obtain ⟨root, isRoot, inRoot, hasNumber⟩ := Machine.exists_root isSub
    refine ⟨(declared step isStep).ne_inner (declaredRoots root isRoot) inRoot hasNumber, fun built inStep isBuilt => ?_⟩
    exact (declaredRoots root isRoot).numbered.ne_built (declared step isStep).numbered inRoot inStep hasNumber isBuilt
  · exact fun sub isSub => (kept sub isSub).step?_propagate
  · intro step isStep transition isTransition sub isSub
    obtain ⟨root, isRoot, inRoot, hasNumber⟩ := Machine.exists_root isSub
    have nonempty : sub.name ≠ "" := (declaredRoots root isRoot).numbered.name_ne_empty inRoot hasNumber
    have found : ∀ name, name = sub.name → original.key? name = some sub.name := by
      rintro name rfl
      exact Machine.key?_of_mem (kept sub isSub).name_mem nonempty
    rw [Machine.targets_propagate isStep isTransition]
    exact ⟨found _, found _, found _⟩

/-- A file with one step, which jumps to a function literal that calls a subroutine and goes on with a
second literal. -/
def nestedFile : SourceFile :=
  let literal := Sample.stepLiteral "smachine" "ExecutionContext"
  let exit : Expr := literal [.ret [Sample.onContext "Stop" []]]
  let calling : Expr := literal [
    .ret [Sample.onContext "CallSubroutine" [Sample.newMachine "Sub", Sample.ident "nil", exit]]]
  Sample.file "nested.go" [
    Sample.stepDecl "smachine" "Nested" "start" "ExecutionContext" [.ret [Sample.onContext "Jump" [calling]]]]

/-- The steps of the file. -/
def nestedSteps : List Step := (analyze {} nestedFile).toOption.getD []

/-- The only machine of the file. -/
def nestedMachine : Machine := ((({} : Graph).addSteps "nested" nestedSteps).propagate.machines.head?).getD default

/-- Its inner steps, and where the transition into the subroutine leads. -/
theorem inner_steps_found_nested :
    (Step.numbered ((nestedMachine.blank.taken (Graph.ofType nestedMachine.receiverType nestedSteps)).flatMap
      Step.inner)).map Step.name = ["start.1", "start.1.Sub\x7b\x7d.1", "start.1.2"] ∧
    ∀ step ∈ nestedMachine.steps, ∀ transition ∈ step.transitions, transition.destination = "start.1.Sub\x7b\x7d.1" →
      transition.targets.destination = some "start.1.Sub\x7b\x7d.1" := by
  have named : nestedFile.isNamed = true := by decide +kernel
  have analyzed : analyze {} nestedFile = .ok nestedSteps := rfl
  have member : nestedMachine ∈ (({} : Graph).addSteps "nested" nestedSteps).propagate.machines :=
    List.mem_of_head? rfl
  have names : (Step.numbered ((nestedMachine.blank.taken (Graph.ofType nestedMachine.receiverType nestedSteps)).flatMap
      Step.inner)).map Step.name = ["start.1", "start.1.Sub\x7b\x7d.1", "start.1.2"] := by decide +kernel
  obtain ⟨-, -, -, -, led⟩ := inner_steps_found {} nestedFile named nestedSteps analyzed "nested" nestedMachine member
  refine ⟨names, fun step isStep transition isTransition same => ?_⟩
  obtain ⟨sub, isSub, isName⟩ : ∃ sub ∈ Step.numbered ((nestedMachine.blank.taken
      (Graph.ofType nestedMachine.receiverType nestedSteps)).flatMap Step.inner),
      sub.name = "start.1.Sub\x7b\x7d.1" := by
    rw [← List.mem_map, names]
    simp
  rw [← isName] at same ⊢
  exact (led step isStep transition isTransition sub isSub).1 same

end StepChart
