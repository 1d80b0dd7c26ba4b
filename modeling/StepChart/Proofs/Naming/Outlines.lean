import StepChart.Proofs.Naming.Slots
import StepChart.Proofs.Trace.Kept

/-!
# Inner steps are numbered by their places

While the exits of a step are turned into transitions, inner steps are met in many ways: as arguments, as
entries of descriptors, as default handlers, once more for each exit that a default is in force at. However
they are met, each gets the number of its place among the inner steps of its step, `NumberedFrom`. So the
outline of a step is `Numbered` at all depths (`trace_numbered`), as long as identifiers are like
identifiers.
-/

namespace StepChart

open Syntax Text

/-- Names in an expression are like identifiers. -/
def isNamed : Expr → Bool
  | .ident _ name => isIdentifierLike name
  | .selector _ _ field => isIdentifierLike field
  | _ => true

/-! ## Names of machines -/

theorem undigited_of_isIdentifierLike {text : String} (like : isIdentifierLike text = true) : undigited text = true :=
  (Bool.and_eq_true_iff.1 like).1

theorem undigited_append {first second : String} (beginsFirst : undigited first = true)
    (beginsSecond : undigited second = true) : undigited (first ++ second) = true := by
  unfold undigited at *
  rw [String.toList_append, List.head?_append]
  cases head : first.toList.head? with
  | none => exact beginsSecond
  | some c => rwa [head] at beginsFirst

theorem undigited_dotted {expr : Expr} (every : expr.all isNamed = true) :
    undigited (dotted expr.qualifiedName) = true := by
  fun_cases Expr.qualifiedName expr with
  | case1 outer inner qualifier name =>
    have beginsName : undigited name = true := undigited_of_isIdentifierLike (Expr.all_self every)
    have beginsQualifier : undigited qualifier = true :=
      undigited_of_isIdentifierLike (Expr.all_self (Expr.all_selector every))
    unfold dotted
    split
    · exact beginsName
    · exact undigited_append (undigited_append beginsQualifier rfl) beginsName
  | case2 span operand name _ => exact undigited_of_isIdentifierLike (Expr.all_self every)
  | case3 span name => exact undigited_of_isIdentifierLike (Expr.all_self every)
  | case4 => rfl

theorem undigited_builtName {type : Option Expr} (every : exprAll? isNamed type = true) :
    undigited (builtName type) = true := by
  cases type with
  | none => rfl
  | some type => exact undigited_append (undigited_dotted every) rfl

theorem undigited_machineName {expr : Expr} (every : expr.all isNamed = true) : undigited (machineName expr) = true := by
  fun_induction machineName expr with
  | case1 span operand ih => exact ih (Expr.all_unary every)
  | case2 span type elements => exact undigited_builtName (Expr.all_composite every).1
  | case3 => exact undigited_dotted every

/-! ## Numbered outlines -/

namespace Outline

/-- The name of a step. -/
def name (outline : Outline) : String := outline.signature.name

/-- What a step was written as. -/
def role (outline : Outline) : Role :=
  if outline.isSubroutine then if outline.moves.isEmpty then .built else .subroutine else .literal

/-- The inner steps have the names of their places, at all depths; only function literals have any. -/
inductive Numbered : Outline → Prop
  | intro {outline : Outline}
      (names : ∀ (index : Nat) (sub : Outline), outline.subSteps[index]? = some sub → sub.role.Names outline.name index sub.name)
      (leaf : outline.role ≠ .literal → outline.subSteps = [])
      (inside : ∀ sub ∈ outline.subSteps, Numbered sub) : Numbered outline

/-- A step without inner steps. -/
theorem Numbered.leaf {outline : Outline} (noSubs : outline.subSteps = []) : outline.Numbered := by
  refine .intro (fun index sub found => ?_) (fun _ => noSubs) fun sub member => ?_
  · rw [noSubs] at found
    cases found
  · rw [noSubs] at member
    cases member

end Outline

/-- Inner steps of the step `parent` that come after `count` others. -/
structure NumberedFrom (parent : String) (count : Nat) (subs : List Outline) : Prop where
  names : ∀ (index : Nat) (sub : Outline), subs[index]? = some sub → sub.role.Names parent (count + index) sub.name
  inside : ∀ sub ∈ subs, sub.Numbered

namespace NumberedFrom

variable {parent : String} {count : Nat}

theorem nil : NumberedFrom parent count [] :=
  ⟨fun _ _ found => (nomatch found), fun _ member => (nomatch member)⟩

theorem single {sub : Outline} (names : sub.role.Names parent count sub.name) (inside : sub.Numbered) :
    NumberedFrom parent count [sub] := by
  refine ⟨fun index other found => ?_, fun other member => ?_⟩
  · cases index with
    | zero =>
      cases found
      exact names
    | succ index => cases found
  · rw [List.mem_singleton.1 member]
    exact inside

theorem append {first second : List Outline} (numberedFirst : NumberedFrom parent count first)
    (numberedSecond : NumberedFrom parent (count + first.length) second) :
    NumberedFrom parent count (first ++ second) := by
  refine ⟨fun index sub found => ?_, fun sub member => ?_⟩
  · by_cases inFirst : index < first.length
    · rw [List.getElem?_append_left inFirst] at found
      exact numberedFirst.names index sub found
    · rw [List.getElem?_append_right (by omega)] at found
      have names := numberedSecond.names (index - first.length) sub found
      have place : count + first.length + (index - first.length) = count + index := by omega
      rwa [place] at names
  · rcases List.mem_append.1 member with inFirst | inSecond
    · exact numberedFirst.inside sub inFirst
    · exact numberedSecond.inside sub inSecond

theorem cons {sub : Outline} {rest : List Outline} (names : sub.role.Names parent count sub.name)
    (inside : sub.Numbered) (after : NumberedFrom parent (count + 1) rest) : NumberedFrom parent count (sub :: rest) :=
  (single names inside).append after

end NumberedFrom

/-! ## Ways to meet an inner step -/

/-- Function literals are traced into numbered outlines, which are no subroutines. -/
structure Tracer.Numbers (tracer : Tracer) : Prop where
  numbered : ∀ signature body, stmtsAll isNamed body = true → (tracer signature body).Numbered
  name : ∀ signature body, (tracer signature body).name = signature.name
  role : ∀ signature body, (tracer signature body).role = .literal

namespace Tracing

variable {tracing : Tracing} (numbers : tracing.tracer.Numbers)

include numbers

theorem refer_numbered (kind : Kind) (count : Nat) {expr : Expr} (every : expr.all isNamed = true) :
    NumberedFrom tracing.signature.name count (tracing.refer kind count expr).2 := by
  fun_induction Tracing.refer tracing kind count expr with
  | case1 => exact .nil
  | case2 span operand _ ih => exact ih (Expr.all_unary every)
  | case3 span type elements _ name signature => exact .single ⟨type, rfl⟩ (.leaf rfl)
  | case4 => exact .nil
  | case5 span params results body name signature =>
    refine .single ?_ (numbers.numbered signature body (Expr.all_func every))
    rw [numbers.role, numbers.name]
    rfl
  | case6 => exact .nil

theorem describeEntry_numbered {count : Nat} {said : Description} {expr : Expr} (every : expr.all isNamed = true)
    (before : NumberedFrom tracing.signature.name count said.subs) :
    NumberedFrom tracing.signature.name count (tracing.describeEntry count said expr).subs := by
  fun_cases Tracing.describeEntry tracing count said expr with
  | case1 span key value _ destination added met =>
    have after := refer_numbered numbers .execution (count + said.subs.length) (Expr.all_keyValue every).2
    rw [met] at after
    exact before.append after
  | case2 span key value _ _ migration added met =>
    have after := refer_numbered numbers .migration (count + said.subs.length) (Expr.all_keyValue every).2
    rw [met] at after
    exact before.append after
  | case3 => exact before
  | case4 => exact before

/-- The entries are read one after the other; what was met before stays numbered. -/
theorem describeEntries_numbered {count : Nat} {entries : List Expr} (every : exprsAll isNamed entries = true)
    {said : Description} (before : NumberedFrom tracing.signature.name count said.subs) :
    NumberedFrom tracing.signature.name count (entries.foldl (tracing.describeEntry count) said).subs := by
  induction entries generalizing said with
  | nil => exact before
  | cons entry entries ih =>
    obtain ⟨inEntry, inEntries⟩ := Bool.and_eq_true_iff.1 every
    exact ih inEntries (describeEntry_numbered numbers inEntry before)

theorem describe_numbered (count : Nat) {expr : Expr} (every : expr.all isNamed = true) :
    NumberedFrom tracing.signature.name count (tracing.describe count expr).subs := by
  unfold describe
  split
  next span type elements =>
    split
    · exact describeEntries_numbered numbers (Expr.all_composite every).2 .nil
    · exact .nil
  next => exact .nil

/-! ## Exits -/

theorem subroutine_numbered (count : Nat) (transition : Transition) {machine migrate exit : Expr}
    (inMachine : machine.all isNamed = true) (inMigrate : migrate.all isNamed = true)
    (inExit : exit.all isNamed = true) :
    NumberedFrom tracing.signature.name count (tracing.subroutine count transition machine migrate exit).subs := by
  unfold subroutine
  have handlers := refer_numbered numbers .migration count inMigrate
  have after := refer_numbered numbers .execution (count + (tracing.refer .migration count migrate).2.length + 1) inExit
  refine handlers.append (.cons ?_ (.leaf rfl) after)
  exact ⟨machineName machine, undigited_machineName inMachine, rfl⟩

theorem jumpTo_numbered (count : Nat) (transition : Transition) (kind : Kind) {args : List Expr}
    (inArgs : ∀ arg ∈ args, arg.all isNamed = true) :
    NumberedFrom tracing.signature.name count (tracing.jumpTo count transition kind args).subs := by
  cases args with
  | nil => exact .nil
  | cons target args => exact refer_numbered numbers kind count (inArgs target List.mem_cons_self)

theorem jumpAsDescribed_numbered (count : Nat) (transition : Transition) {args : List Expr}
    (inArgs : ∀ arg ∈ args, arg.all isNamed = true) :
    NumberedFrom tracing.signature.name count (tracing.jumpAsDescribed count transition args).subs := by
  cases args with
  | nil => exact .nil
  | cons descriptor args => exact describe_numbered numbers count (inArgs descriptor List.mem_cons_self)

theorem perform_numbered (count : Nat) (transition : Transition) {chain : Chain} (holds : chain.Holds isNamed) :
    NumberedFrom tracing.signature.name count (tracing.perform count transition chain).subs := by
  have inArgs := holds.args
  unfold perform
  cases Operation.ofName chain.name with
  | callSubroutine =>
    dsimp only
    split
    next machine migrate exit same =>
      rw [same] at inArgs
      exact subroutine_numbered numbers count transition (inArgs machine (by simp)) (inArgs migrate (by simp))
        (inArgs exit (by simp))
    next => exact .nil
  | fail => exact .nil
  | stop => exact .nil
  | replace => exact jumpTo_numbered numbers count _ .construction inArgs
  | replaceWith => exact jumpTo_numbered numbers count _ .plain inArgs
  | repeatOrElse => exact .nil
  | repeatOrJump =>
    have jump := jumpTo_numbered numbers count transition .execution inArgs
    dsimp only
    split <;> exact jump
  | repeatOrJumpAsDescribed => exact jumpAsDescribed_numbered numbers count transition inArgs
  | jumpAsDescribed => exact jumpAsDescribed_numbered numbers count transition inArgs
  | jump =>
    dsimp only
    split
    · exact .nil
    · exact jumpTo_numbered numbers count _ .execution inArgs

theorem chainOf_numbered (count : Nat) {update : Update} (holds : update.Holds isNamed) :
    (tracing.chainOf count update).1.Holds isNamed ∧
      NumberedFrom tracing.signature.name count (tracing.chainOf count update).2 := by
  cases update with
  | chain chain => exact ⟨holds, .nil⟩
  | built type =>
    have inType : exprAll? isNamed type = true := holds
    have every : (Expr.composite default type []).all isNamed = true := by
      unfold Expr.all
      simp [isNamed, exprsAll, inType]
    exact ⟨rfl, refer_numbered numbers .plain count every⟩

theorem defaultHandler_numbered (count : Nat) {defaults : Defaults} (every : exprsAll isNamed defaults.kept = true) :
    NumberedFrom tracing.signature.name count (tracing.defaultHandler count defaults.migration).2 := by
  cases set : defaults.migration with
  | none => exact .nil
  | some handler =>
    refine refer_numbered numbers .execution count (exprsAll_iff.1 every handler ?_)
    simp [Defaults.kept, set]

theorem transitionsOf_numbered (count : Nat) {exit : Exit} (holds : exit.Holds isNamed) :
    NumberedFrom tracing.signature.name count (tracing.transitionsOf count exit).subs := by
  obtain ⟨chainHolds, built⟩ := chainOf_numbered numbers count holds.update
  have handlers := defaultHandler_numbered numbers (count + (tracing.chainOf count exit.update).2.length) holds.defaults
  unfold transitionsOf
  dsimp only
  rw [List.append_assoc]
  refine built.append (handlers.append ?_)
  split
  · exact .nil
  · exact .nil
  · exact perform_numbered numbers _ _ chainHolds

theorem moves_numbered {exits : List Exit} (holds : ∀ exit ∈ exits, exit.Holds isNamed) :
    NumberedFrom tracing.signature.name 0 (tracing.moves exits).2 := by
  unfold moves
  suffices follow : ∀ (exits : List Exit) (met : List Move × List Outline), (∀ exit ∈ exits, exit.Holds isNamed) →
      NumberedFrom tracing.signature.name 0 met.2 → NumberedFrom tracing.signature.name 0 (exits.foldl (fun met exit =>
        let found := tracing.transitionsOf met.2.length exit
        (met.1 ++ found.transitions.map (Move.mk exit.guard), met.2 ++ found.subs)) met).2 from
    follow exits ([], []) holds .nil
  intro exits
  induction exits with
  | nil => exact fun met _ before => before
  | cons exit exits ih =>
    intro met holds before
    refine ih _ (fun other member => holds other (List.mem_cons_of_mem _ member)) (before.append ?_)
    rw [Nat.zero_add]
    exact transitionsOf_numbered numbers met.2.length (holds exit List.mem_cons_self)

end Tracing

/-! ## Steps -/

theorem outlineWith_numbers {tracer : Tracer} (numbers : tracer.Numbers) (framework : String) :
    Tracer.Numbers (outlineWith tracer framework) := by
  refine ⟨fun signature body every => ?_, fun _ _ => rfl, fun _ _ => rfl⟩
  have subs := @Tracing.moves_numbered ⟨framework, signature, tracer⟩ numbers _ (walk_holds signature every).exits
  refine .intro (fun index sub found => ?_) (fun other => absurd rfl other) subs.inside
  have names := subs.names index sub found
  rwa [Nat.zero_add] at names

theorem outline_numbers (framework : String) (depth : Nat) : Tracer.Numbers (outline framework depth) := by
  induction depth with
  | zero => exact ⟨fun _ _ _ => .leaf rfl, fun _ _ => rfl, fun _ _ => rfl⟩
  | succ depth ih => exact outlineWith_numbers ih framework

/-- **Inner steps are numbered**, however deep they are. -/
theorem trace_numbered (framework : String) (signature : Signature) {body : List Stmt}
    (every : stmtsAll isNamed body = true) : (trace framework signature body).Numbered :=
  (outline_numbers framework (stmtsSize body + 1)).numbered signature body every

end StepChart
