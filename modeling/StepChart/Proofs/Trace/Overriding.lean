import StepChart.Proofs.Step.Folding
import StepChart.Proofs.Syntax.Samples
import StepChart.Proofs.Trace.Bodies
import StepChart.Proofs.Trace.ContextChains
import StepChart.Proofs.Trace.Unresolved

/-!
# Handlers that are set override handlers that are inherited

A transition with a handler of its own passes nothing on, and neither does one that ends the machine or one that leaves
under a default (`Transition.Settled`). Every operation keeps to this (`perform_settled`), whatever the return. Folded
repeats keep to it too, since a fold touches neither the handler nor the flag. `explicit_handler_overrides` says so of all
steps of a file, at all depths, and names for each transition the return it comes from.
-/

namespace StepChart

open Syntax Text

/-! ## Transitions -/

/-- The transition inherits only if it has no handler, leads on and does not leave under a default. -/
structure Transition.Settled (preset : Bool) (transition : Transition) : Prop where
  handler : transition.migration ≠ "" → transition.inherits = false
  stop : transition.destination = stopDestination → transition.inherits = false
  default : preset = true → transition.inherits = false

namespace Transition.Settled

variable {preset : Bool} {transition : Transition}

theorem of_inherits (passesNothing : transition.inherits = false) : transition.Settled preset :=
  ⟨fun _ => passesNothing, fun _ => passesNothing, fun _ => passesNothing⟩

theorem labeled (settled : transition.Settled preset) (operation : String) :
    Transition.Settled preset { transition with operation } := ⟨settled.handler, settled.stop, settled.default⟩

theorem leading (settled : transition.Settled preset) {destination : String} (noMark : destination ∉ marks) :
    Transition.Settled preset { transition with destination } := by
  refine ⟨settled.handler, fun isStop => absurd ?_ noMark, settled.default⟩
  rw [show destination = stopDestination from isStop]
  decide

theorem arrive (settled : transition.Settled preset) {destination : String} (noMark : destination ∉ marks) :
    (Tracing.arrive transition destination).Settled preset := by
  unfold Tracing.arrive
  split
  · have differ : unknownDestination ≠ stopDestination := by decide
    exact ⟨settled.handler, fun isStop => absurd isStop differ, settled.default⟩
  · exact settled.leading noMark

theorem handledBy (settled : transition.Settled preset) (migration : String) :
    (Tracing.handledBy transition migration).Settled preset := by
  unfold Tracing.handledBy
  split
  · exact settled
  · exact of_inherits rfl

/-- A handler that goes to an inner step instead leaves the transition as it is otherwise. -/
theorem entering (settled : transition.Settled preset) {destination : String} (noMark : destination ∉ marks)
    (operation resumption : String) :
    Transition.Settled preset { transition with operation, destination, migration := "", resumption } :=
  ⟨fun hasHandler => absurd rfl hasHandler, (settled.leading noMark).stop, settled.default⟩

theorem sameWay {other : Transition} (settled : transition.Settled preset) (same : transition.SameWay other) :
    other.Settled preset := by
  obtain ⟨condition, operation, rfl⟩ := same
  exact ⟨settled.handler, settled.stop, settled.default⟩

end Transition.Settled

/-! ## Returns -/

namespace Tracing

variable (tracing : Tracing) {preset : Bool} {transition : Transition}

theorem subroutine_settled (count : Nat) (settled : transition.Settled preset) (machine migrate exit : Expr) :
    ∀ other ∈ (tracing.subroutine count transition machine migrate exit).transitions, other.Settled preset := by
  refine List.forall_mem_singleton.2 ((settled.handledBy _).entering (not_mem_marks_of_dot ?_) _ _)
  simp

theorem jumpTo_settled (count : Nat) (settled : transition.Settled preset) (kind : Kind) {args : List Expr}
    (unmarked : ∀ arg ∈ args, arg.all isUnmarked = true) :
    ∀ other ∈ (tracing.jumpTo count transition kind args).transitions, other.Settled preset := by
  cases args with
  | nil => exact List.forall_mem_singleton.2 (settled.arrive (by decide))
  | cons target args =>
    refine List.forall_mem_singleton.2 (settled.arrive ?_)
    exact tracing.refer_not_mem_marks kind count (unmarked target List.mem_cons_self)

theorem jumpAsDescribed_settled (count : Nat) (settled : transition.Settled preset) {args : List Expr}
    (unmarked : ∀ arg ∈ args, arg.all isUnmarked = true) :
    ∀ other ∈ (tracing.jumpAsDescribed count transition args).transitions, other.Settled preset := by
  cases args with
  | nil => exact List.forall_mem_singleton.2 (settled.arrive (by decide))
  | cons descriptor args =>
    refine List.forall_mem_singleton.2 ((settled.handledBy _).arrive ?_)
    exact tracing.describe_not_mem_marks count (unmarked descriptor List.mem_cons_self)

/-- Every operation keeps transitions settled. -/
theorem perform_settled (count : Nat) (settled : transition.Settled preset) {chain : Chain}
    (unmarked : ∀ arg ∈ chain.args, arg.all isUnmarked = true) :
    ∀ other ∈ (tracing.perform count transition chain).transitions, other.Settled preset := by
  unfold perform
  cases Operation.ofName chain.name with
  | callSubroutine =>
    dsimp only
    split
    · exact tracing.subroutine_settled count settled _ _ _
    · exact List.forall_mem_singleton.2 (settled.arrive (by decide))
  | fail | stop => exact List.forall_mem_singleton.2 (.of_inherits rfl)
  | replace => exact tracing.jumpTo_settled count (.of_inherits rfl) .construction unmarked
  | replaceWith => exact tracing.jumpTo_settled count (.of_inherits rfl) .plain unmarked
  | repeatOrElse => exact List.forall_mem_singleton.2 (settled.leading (by decide))
  | repeatOrJump =>
    have jump := tracing.jumpTo_settled count settled .execution unmarked
    dsimp only
    split
    · exact jump
    · exact List.forall_mem_cons.2 ⟨settled, jump⟩
  | repeatOrJumpAsDescribed =>
    exact List.forall_mem_cons.2 ⟨settled, tracing.jumpAsDescribed_settled count settled unmarked⟩
  | jumpAsDescribed => exact tracing.jumpAsDescribed_settled count settled unmarked
  | jump =>
    dsimp only
    split
    · exact List.forall_mem_singleton.2 settled
    · exact tracing.jumpTo_settled count (settled.labeled _) .execution unmarked

end Tracing

theorem Chain.fullName_called (chain : Chain) (args : List Expr) : (chain.called args).fullName = chain.fullName := by
  cases chain <;> rfl

/-- A chain from the context is not spelled like a mark. -/
theorem Chain.fullName_not_mem_marks_of_isContext : (chain : Chain) → chain.isContext = true → chain.fullName ∉ marks
  | .context _, _ => (by decide : "" ∉ marks)
  | .child _ _ _, _ => not_mem_marks_of_dot (by simp [fullName])

theorem Chain.Denoted.fullName_not_mem_marks {chain : Chain} (denoted : chain.Denoted isUnmarked) :
    chain.fullName ∉ marks := by
  obtain ⟨names, expr, only, every, resolved⟩ := denoted
  fun_induction Environment.resolve names expr generalizing chain with
  | case1 span operand field =>
    obtain ⟨parent, -, rfl⟩ := Option.map_eq_some_iff.1 resolved
    exact not_mem_marks_of_dot (by simp [fullName])
  | case2 span function args ih =>
    obtain ⟨called, found, rfl⟩ := Option.map_eq_some_iff.1 resolved
    rw [fullName_called]
    exact ih (Expr.all_call every).1 found
  | case3 span name =>
    cases bound : names name with
    | none =>
      rw [bound] at resolved
      cases resolved
      exact of_decide_eq_true (Expr.all_self every)
    | some value =>
      rw [bound] at resolved
      cases resolved
      exact value.fullName_not_mem_marks_of_isContext (only name value bound)
  | case4 => cases resolved

/-- What a step without operations hands back is not spelled like a mark. -/
theorem Tracing.fullName_chainOf_not_mem_marks (tracing : Tracing) (count : Nat) {update : Update}
    (denoted : ∀ chain, update = .chain chain → chain.Denoted isUnmarked) :
    (tracing.chainOf count update).1.fullName ∉ marks := by
  cases update with
  | chain chain => exact (denoted chain rfl).fullName_not_mem_marks
  | built type => exact builtName_not_mem_marks type

theorem Tracing.transitionsOf_settled (tracing : Tracing) (count : Nat) {exit : Exit} (holds : exit.Holds isUnmarked)
    (denoted : ∀ chain, exit.update = .chain chain → chain.Denoted isUnmarked) :
    ∀ transition ∈ (tracing.transitionsOf count exit).transitions,
      transition.Settled exit.defaults.migration.isSome := by
  have unmarked : ∀ arg ∈ (tracing.chainOf count exit.update).1.args, arg.all isUnmarked = true := by
    have holdsUpdate := holds.update
    cases found : exit.update with
    | chain chain =>
      rw [found] at holdsUpdate
      exact holdsUpdate.args
    | built type => exact List.forall_mem_nil _
  have start : ∀ count, Transition.Settled exit.defaults.migration.isSome
      { migration := (tracing.defaultHandler count exit.defaults.migration).1
        inherits := exit.defaults.migration.isNone } := by
    intro count
    cases exit.defaults.migration with
    | none =>
      have leadsOn : "" ≠ stopDestination := by decide
      exact ⟨fun hasHandler => absurd rfl hasHandler, fun isStop => absurd isStop leadsOn, fun isSet => nomatch isSet⟩
    | some handler => exact .of_inherits rfl
  have named := tracing.fullName_chainOf_not_mem_marks count denoted
  unfold transitionsOf
  dsimp only
  split
  · exact List.forall_mem_singleton.2 ((start _).leading named)
  · exact List.forall_mem_singleton.2 ((start _).leading named)
  · exact tracing.perform_settled _ ((start _).labeled _) unmarked

/-! ## Returns that set nothing -/

/-- The operations that end the machine, replace it, or may set a handler for a subroutine. -/
def overridingNames : List String := ["CallSubroutine", "Error", "Errorf", "Stop", "Replace", "ReplaceWith"]

/-- There is no default at the exit, and its operation is none that could override what is inherited. -/
def Exit.isPlain (exit : Exit) : Bool :=
  match exit.update with
  | .chain chain =>
    exit.defaults.migration.isNone && decide (chain.name ∉ overridingNames) && !asksForDescriptor chain.name
  | .built _ => false

namespace Tracing

variable (tracing : Tracing)

theorem jumpTo_inherits (count : Nat) (transition : Transition) (kind : Kind) (args : List Expr) :
    ∀ other ∈ (tracing.jumpTo count transition kind args).transitions, other.inherits = transition.inherits := by
  cases args with
  | nil | cons => exact List.forall_mem_singleton.2 rfl

theorem perform_inherits (count : Nat) (transition : Transition) {chain : Chain} (free : chain.name ∉ overridingNames)
    (noDescriptor : asksForDescriptor chain.name = false) :
    ∀ other ∈ (tracing.perform count transition chain).transitions, other.inherits = transition.inherits := by
  have spelled := Operation.spelled_ofName chain.name
  unfold perform
  generalize Operation.ofName chain.name = operation at spelled ⊢
  cases operation with
  | callSubroutine | stop | replace | replaceWith =>
    have isName : chain.name = _ := spelled
    rw [isName] at free
    exact absurd (by decide) free
  | fail =>
    rcases spelled with isName | isName <;>
    · rw [isName] at free
      exact absurd (by decide) free
  | repeatOrJumpAsDescribed =>
    have isName : chain.name = _ := spelled
    rw [isName] at noDescriptor
    exact absurd noDescriptor (by decide)
  | jumpAsDescribed =>
    rw [spelled.2.2] at noDescriptor
    cases noDescriptor
  | repeatOrElse => exact List.forall_mem_singleton.2 rfl
  | repeatOrJump =>
    have jump := tracing.jumpTo_inherits count transition .execution chain.args
    dsimp only
    split
    · exact jump
    · exact List.forall_mem_cons.2 ⟨rfl, jump⟩
  | jump =>
    dsimp only
    split
    · exact List.forall_mem_singleton.2 rfl
    · exact tracing.jumpTo_inherits count _ .execution chain.args

/-- Where nothing overrides it, what a step has is passed on. -/
theorem transitionsOf_inherits (count : Nat) {exit : Exit} (plain : exit.isPlain = true) :
    ∀ transition ∈ (tracing.transitionsOf count exit).transitions, transition.inherits = true := by
  obtain ⟨update, guard, defaults⟩ := exit
  cases update with
  | built type => cases plain
  | chain chain =>
    obtain ⟨⟨noDefault, free⟩, noDescriptor⟩ : (defaults.migration.isNone = true ∧ chain.name ∉ overridingNames) ∧
        asksForDescriptor chain.name = false := by simpa [Exit.isPlain] using plain
    unfold transitionsOf
    dsimp only
    rw [noDefault]
    split
    · exact List.forall_mem_singleton.2 rfl
    · exact List.forall_mem_singleton.2 rfl
    · exact tracing.perform_inherits _ _ free noDescriptor

end Tracing

/-! ## Steps -/

/-- The exits of a body with what they hand over, one transition after the other. -/
def ways (framework : String) (signature : Signature) (body : List Stmt) : List (Exit × Transition) :=
  (trail framework signature body).flatMap fun handed => handed.found.transitions.map (Prod.mk handed.exit)

/-- The exits that the transitions of a step come from, one by one. A repeat after another one is folded into it. -/
def origins (framework : String) (signature : Signature) (body : List Stmt) : List (Exit × Transition) :=
  keepFirst (·.2.isRepeat) (ways framework signature body)

section Traced

variable {framework : String} {signature : Signature} {body : List Stmt}

theorem exists_of_mem_ways {way : Exit × Transition} (member : way ∈ ways framework signature body) :
    ∃ handed ∈ trail framework signature body, way.1 = handed.exit ∧ ∃ count,
      way.2 ∈ (Tracing.transitionsOf ⟨framework, signature, trace framework⟩ count handed.exit).transitions := by
  obtain ⟨handed, isHanded, inHanded⟩ := List.mem_flatMap.1 member
  obtain ⟨transition, found, rfl⟩ := List.mem_map.1 inHanded
  obtain ⟨before, after, split⟩ := List.append_of_mem isHanded
  rw [found_of_trail split] at found
  exact ⟨handed, isHanded, rfl, _, found⟩

/-- What a return hands over is settled. -/
theorem ways_settled (unmarked : stmtsAll isUnmarked body = true) : ∀ way ∈ ways framework signature body,
    way.2.Settled way.1.defaults.migration.isSome ∧ (way.1.isPlain = true → way.2.inherits = true) := by
  intro way member
  obtain ⟨handed, isHanded, isExit, count, found⟩ := exists_of_mem_ways member
  have holds := exit_holds_of_trail unmarked isHanded
  have denoted : ∀ chain, handed.exit.update = .chain chain → chain.Denoted isUnmarked :=
    fun _ => exitsAt_denoted unmarked (located_mem_exitsAt isHanded)
  rw [isExit]
  exact ⟨Tracing.transitionsOf_settled _ count holds denoted way.2 found,
    fun plain => Tracing.transitionsOf_inherits _ count plain way.2 found⟩

theorem moves_trace : (trace framework signature body).moves =
    (ways framework signature body).map fun way => ⟨way.1.guard, way.2⟩ := by
  rw [(trace_eq_trail framework signature body).1, ways, List.map_flatMap]
  congr 1
  funext handed
  rw [List.map_map]
  rfl

/-- The transitions of a traced step come from the returns of its body. -/
theorem toStep_origins {wording : Wording} {step : Step}
    (traced : (trace framework signature body).toStep wording = .ok step) :
    List.Forall₂ (fun origin transition => origin.2.SameWay transition) (origins framework signature body)
      step.transitions := by
  have moved : List.Forall₂ (fun (way : Exit × Transition) (move : Move) => move.transition = way.2)
      (ways framework signature body) (trace framework signature body).moves := by
    rw [moves_trace, List.forall₂_map_right_iff, List.forall₂_same]
    exact fun _ _ => rfl
  have sameRepeats : ∀ (way : Exit × Transition) (move : Move), move.transition = way.2 →
      way.2.isRepeat = move.transition.isRepeat := fun _ _ same => congrArg Transition.isRepeat same.symm
  refine forall₂_trans ?_ (forall₂_keepFirst sameRepeats moved) (toStep_forall₂ traced)
  intro way move transition same sameWay
  rwa [same] at sameWay

end Traced

theorem transitions_machine {outline : Outline} (machine : outline.ForMachine) {wording : Wording} {step : Step}
    (worded : outline.toStep wording = .ok step) :
    ∀ transition ∈ step.transitions, transition.inherits = false ∧ transition.migration = "" := by
  intro transition member
  obtain ⟨move, isKept, condition, operation, rfl⟩ := exists_of_mem_forall₂ (toStep_forall₂ worded) member
  have isMove := (keepFirst_sublist outline.moves).subset isKept
  cases machine with
  | built signature => cases isMove
  | entered signature resumption migrations =>
    rw [List.mem_singleton.1 isMove]
    exact ⟨rfl, rfl⟩

/-- **Handlers that are set override handlers that are inherited.** No transition of any step of a file has a handler of
its own or ends the machine and passes on what the step has. A flagged step passes nothing on; the transitions of any
other step come one by one from the returns of a body in the file, and one that leaves under a default passes nothing on
either, whatever the default is. What leaves without a default and by a plain operation passes on what the step has. -/
theorem explicit_handler_overrides {options : AnalysisOptions} {file : SourceFile} {steps : List Step}
    (unmarked : ∀ decl ∈ file.decls, stmtsAll isUnmarked (decl.body.getD []) = true)
    (analyzed : analyze options file = .ok steps) : ∀ step ∈ Step.innerAll steps,
      (∀ transition ∈ step.transitions, transition.migration ≠ "" ∨ transition.destination = stopDestination →
        transition.inherits = false) ∧
      (step.isSubroutine = true → ∀ transition ∈ step.transitions, transition.inherits = false) ∧
      (step.isSubroutine = false → ∃ framework, qualifierOf? file.imports options.framework = some framework ∧
        ∃ decl ∈ file.decls, ∃ body, decl.Body body ∧
          List.Forall₂ (fun origin transition => origin.2.SameWay transition ∧
              (origin.1.defaults.migration.isSome = true → transition.inherits = false) ∧
              (origin.1.isPlain = true → transition.inherits = true))
            (origins framework step.signature body) step.transitions) := by
  intro step member
  obtain ⟨framework, outline, qualifier, within, worded⟩ := analyze_within analyzed step member
  have flag := (toStep_worded worded).flag
  rcases within with machine | ⟨decl, isDecl, signature, body, isBody, rfl⟩
  · have nothing := transitions_machine machine worded
    refine ⟨fun transition isTransition _ => (nothing transition isTransition).1,
      fun _ transition isTransition => (nothing transition isTransition).1, fun unflagged => ?_⟩
    rw [flag, machine.flag] at unflagged
    cases unflagged
  · have settled : ∀ origin ∈ origins framework signature body,
        origin.2.Settled origin.1.defaults.migration.isSome ∧ (origin.1.isPlain = true → origin.2.inherits = true) :=
      fun origin isOrigin =>
        ways_settled (isBody.all (unmarked decl isDecl)) origin ((keepFirst_sublist _).subset isOrigin)
    have sameSignature : step.signature = signature := (toStep_worded worded).signature
    have come := toStep_origins worded
    refine ⟨?_, fun flagged => ?_, fun _ => ⟨framework, qualifier, decl, isDecl, body, isBody, ?_⟩⟩
    · intro transition isTransition overrides
      obtain ⟨origin, isOrigin, same⟩ := exists_of_mem_forall₂ come isTransition
      have here := (settled origin isOrigin).1.sameWay same
      exact overrides.elim here.handler here.stop
    · rw [flag] at flagged
      cases flagged
    · rw [sameSignature]
      refine ((List.forall₂_and_left _ _).2 ⟨settled, come⟩).imp ?_
      rintro origin transition ⟨⟨here, plain⟩, same⟩
      exact ⟨same, (here.sameWay same).default, fun isPlain => same.inherits.trans (plain isPlain)⟩

/-- A step that repeats before and after a default is set, then ends or leaves with a handler that is written in place. -/
def handlingFile : SourceFile :=
  let handler : Expr := .func default [] [] [.ret [Sample.onContext "Jump" [Sample.ident "moved"]]]
  let descriptor : Expr := .composite default (some (Sample.qualified "smachine" "SlotStep"))
    [.keyValue default (Sample.ident "Transition") (Sample.ident "next"),
      .keyValue default (Sample.ident "Migration") handler]
  Sample.file "handling.go" [
    Sample.stepDecl "smachine" "Handling" "handle" "ExecutionContext" [
      .ifElse (Sample.ident "early") [.ret [Sample.onContext "Repeat" []]] none,
      .expr (Sample.onContext "SetDefaultMigration" [Sample.ident "nil"]),
      .ifElse (Sample.ident "late") [.ret [Sample.onContext "Repeat" []]] none,
      .ifElse (Sample.ident "done") [.ret [Sample.onContext "Stop" []]] none,
      .ret [Sample.onContext "JumpExt" [descriptor]]]]

/-- The steps of the file. -/
def handlingSteps : List Step := (analyze {} handlingFile).toOption.getD []

/-- The repeats are one transition, which comes from the return before the default. -/
theorem explicit_handler_overrides_handling :
    ((Step.innerAll handlingSteps).map fun step => (step.name, step.transitions.map fun transition =>
      (transition.destination, transition.migration, transition.inherits))) =
      [("handle", [("", "", true), ("<stop>", "", false), ("next", "handle.1", false)]),
        ("handle.1", [("moved", "", true)])] ∧
    ∀ step ∈ Step.innerAll handlingSteps, ∀ transition ∈ step.transitions,
      transition.migration ≠ "" ∨ transition.destination = stopDestination → transition.inherits = false := by
  have unmarked : ∀ decl ∈ handlingFile.decls, stmtsAll isUnmarked (decl.body.getD []) = true := by decide +kernel
  have analyzed : analyze {} handlingFile = .ok handlingSteps := rfl
  refine ⟨by decide +kernel, fun step member => ?_⟩
  exact (explicit_handler_overrides unmarked analyzed step member).1

end StepChart
