import Mathlib.Data.List.Forall2
import StepChart.Proofs.Naming.Outlines
import StepChart.Proofs.Trace.Fields
import StepChart.Trace.Wording

/-!
# Outlines of bodies with other fields

The fields of a function literal are looked at once it becomes an inner step, for the name of its context. If the
fields of all function literals in a body are changed in a way that this name does not depend on, then the same step
comes out (`sameStep_outline`), even if the context types have got another qualifier.
-/

namespace StepChart

open Syntax Text

/-! ## Outlines that become the same step -/

section SameStep

variable (wording : Wording)

/-- The outlines become the same step. -/
def Outline.SameStep (first second : Outline) : Prop := first.toStep wording = second.toStep wording

/-- The moves become the same transition. -/
def Move.SameTransition (first second : Move) : Prop := wording.transition first = wording.transition second

variable {wording}

theorem toSteps_congr {first second : List Outline} (same : List.Forall₂ (Outline.SameStep wording) first second) :
    Outline.toSteps wording first = Outline.toSteps wording second := by
  induction same with
  | nil => rfl
  | cons head tail ih => rw [Outline.toSteps, Outline.toSteps, head, ih]

theorem addMoves_congr {first second : List Move} (same : List.Forall₂ (Move.SameTransition wording) first second)
    (step : Step) : wording.addMoves step first = wording.addMoves step second := by
  induction same generalizing step with
  | nil => rfl
  | cons head tail ih =>
    rw [Wording.addMoves, Wording.addMoves, head]
    split
    · rfl
    · exact ih _

theorem sameStep_of (signature : Signature) (usages : NameSet) {first second : List Move}
    {firstSubs secondSubs : List Outline} (moves : List.Forall₂ (Move.SameTransition wording) first second)
    (subs : List.Forall₂ (Outline.SameStep wording) firstSubs secondSubs) :
    Outline.SameStep wording { signature, moves := first, subSteps := firstSubs, usages }
      { signature, moves := second, subSteps := secondSubs, usages } := by
  unfold Outline.SameStep
  rw [Outline.toStep, Outline.toStep, toSteps_congr subs]
  split
  · rfl
  · exact addMoves_congr moves _

end SameStep

/-! ## Names -/

section Names

variable (change : Field → Field)

theorem builtName_withFields (type : Option Expr) : builtName (exprWithFields? change type) = builtName type := by
  cases type with
  | none => rfl
  | some type => simp only [builtName, exprWithFields?, Option.map_some, Expr.qualifiedName_withFields]

theorem machineName_withFields : (expr : Expr) → machineName (expr.withFields change) = machineName expr
  | .unary _ op operand => by
    cases op with
    | address => exact machineName_withFields operand
    | _ => rfl
  | .composite _ type _ => builtName_withFields change type
  | .selector span operand field =>
    congrArg dotted (Expr.qualifiedName_withFields change (.selector span operand field))
  | .ident .. | .literal .. | .call .. | .func .. | .keyValue .. | .star .. | .paren .. | .index .. | .slice ..
  | .binary .. | .typeAssert .. | .other .. => rfl

theorem Chain.waitLabel_map (f : Expr → Expr) (chain : Chain) : (chain.map f).waitLabel = chain.waitLabel := by
  have named : ∀ parent : Option Chain,
      (parent.map (Chain.map f)).filter hasName = (parent.filter hasName).map (Chain.map f) := by
    intro parent
    cases parent with
    | none => rfl
    | some parent =>
      simp only [Option.map_some, Option.filter_some, hasName_map]
      split <;> rfl
  unfold waitLabel
  rw [name_map, parent?_map, named]
  cases chain.parent?.filter hasName with
  | none => rfl
  | some waited =>
    simp only [Option.map_some, parent?_map, named, name_map]
    cases waited.parent?.filter hasName with
    | none => rfl
    | some owner => simp only [Option.map_some, name_map]

end Names

/-! ## References to steps -/

/-- Two tracings of the same step, of which the first meets function literals with changed fields. Where the test holds,
it finds the same contexts, and traces the bodies of function literals into the same steps. -/
structure Tracing.Agree (wording : Wording) (change : Field → Field) (test : Expr → Bool) (first second : Tracing) :
    Prop where
  signature : first.signature = second.signature
  context : ∀ span params results body, test (.func span params results body) = true →
    findContext? first.framework (params.map change) = findContext? second.framework params
  tracer : ∀ signature body, stmtsAll test body = true →
    Outline.SameStep wording (first.tracer signature (stmtsWithFields change body)) (second.tracer signature body)

namespace Tracing

variable {wording : Wording} {change : Field → Field} {test : Expr → Bool} {first second : Tracing}

/-- The same name, and inner steps that become the same. -/
def SameMet (wording : Wording) (met other : String × List Outline) : Prop :=
  met.1 = other.1 ∧ List.Forall₂ (Outline.SameStep wording) met.2 other.2

/-- The same transitions, and inner steps that become the same. -/
structure Found.Same (wording : Wording) (found other : Found) : Prop where
  transitions : found.transitions = other.transitions
  subs : List.Forall₂ (Outline.SameStep wording) found.subs other.subs

/-- Descriptors that say the same. -/
structure Description.Same (wording : Wording) (said other : Description) : Prop where
  destination : said.destination = other.destination
  migration : said.migration = other.migration
  subs : List.Forall₂ (Outline.SameStep wording) said.subs other.subs

theorem SameMet.leaf (name : String) : SameMet wording (name, []) (name, []) := ⟨rfl, .nil⟩

theorem sameSteps_single {outline other : Outline} (same : Outline.SameStep wording outline other) :
    List.Forall₂ (Outline.SameStep wording) [outline] [other] := .cons same .nil

theorem sameSteps_append {outlines more others othersMore : List Outline}
    (same : List.Forall₂ (Outline.SameStep wording) outlines others)
    (sameMore : List.Forall₂ (Outline.SameStep wording) more othersMore) :
    List.Forall₂ (Outline.SameStep wording) (outlines ++ more) (others ++ othersMore) :=
  List.rel_append same sameMore

section Agree

variable (agree : Agree wording change test first second)

include agree

theorem refer_composite_agree (kind : Kind) (count : Nat) (span : Span) (type : Option Expr)
    (elements others : List Expr) :
    SameMet wording (first.refer kind count (.composite span (exprWithFields? change type) others))
      (second.refer kind count (.composite span type elements)) := by
  rw [refer, refer, builtName_withFields, agree.signature]
  split
  · exact ⟨rfl, sameSteps_single rfl⟩
  · exact .leaf ""

theorem refer_agree (kind : Kind) (count : Nat) {expr : Expr} (every : expr.all test = true) :
    SameMet wording (first.refer kind count (expr.withFields change)) (second.refer kind count expr) := by
  fun_induction Tracing.refer second kind count expr with
  | case1 span operand updates =>
    rw [Expr.withFields, refer, if_pos updates]
    exact .leaf ""
  | case2 span operand noUpdate ih =>
    rw [Expr.withFields, refer, if_neg noUpdate]
    exact ih (Expr.all_unary every)
  | case3 span type elements isPlain name signature =>
    have built := refer_composite_agree agree kind count span type elements (exprsWithFields change elements)
    have met : second.refer kind count (.composite span type elements) =
        (name, [{ signature, isSubroutine := true }]) := by
      rw [refer, if_pos isPlain]
    rw [Expr.withFields, ← met]
    exact built
  | case4 span type elements notPlain =>
    rw [Expr.withFields, refer, if_neg notPlain]
    exact .leaf ""
  | case5 span params results body name signature =>
    have context := agree.context span params results body (Expr.all_self every)
    have sameInner : first.signature.inner first.framework name (params.map change) kind = signature := by
      simp only [signature, Signature.inner, context, agree.signature]
    rw [Expr.withFields, refer, agree.signature]
    refine ⟨rfl, sameSteps_single ?_⟩
    rw [agree.signature] at sameInner
    rw [sameInner]
    exact agree.tracer signature body (Expr.all_func every)
  | case6 expr noAddress noComposite noFunc =>
    have named : first.refer kind count (expr.withFields change) =
        (if (expr.withFields change).qualifiedName = ("", "nil") then ""
          else dotted (expr.withFields change).qualifiedName,
          []) := by
      cases expr with
      | unary span op operand =>
        cases op with
        | address => exact absurd rfl (noAddress span operand)
        | _ => rfl
      | composite span type elements => exact absurd rfl (noComposite span type elements)
      | func span params results body => exact absurd rfl (noFunc span params results body)
      | _ => rfl
    rw [named, Expr.qualifiedName_withFields]
    exact .leaf _

theorem describeEntry_agree (count : Nat) {said other : Description} (before : said.Same wording other) {expr : Expr}
    (every : expr.all test = true) :
    (first.describeEntry count said (expr.withFields change)).Same wording (second.describeEntry count other expr) := by
  have length := before.subs.length_eq
  cases expr with
  | keyValue span key value =>
    obtain ⟨-, inValue⟩ := Expr.all_keyValue every
    have target := refer_agree agree .execution (count + other.subs.length) inValue
    have handler := refer_agree agree .migration (count + other.subs.length) inValue
    simp only [Expr.withFields, describeEntry, Expr.qualifiedName_withFields, length]
    split
    · exact ⟨target.1, before.migration, sameSteps_append before.subs target.2⟩
    · split
      · exact ⟨before.destination, handler.1, sameSteps_append before.subs handler.2⟩
      · exact before
  | _ => exact before

theorem describeEntries_agree (count : Nat) {entries : List Expr} (every : exprsAll test entries = true)
    {said other : Description} (before : said.Same wording other) :
    ((entries.map (Expr.withFields change)).foldl (first.describeEntry count) said).Same wording
      (entries.foldl (second.describeEntry count) other) := by
  induction entries generalizing said other with
  | nil => exact before
  | cons entry entries ih =>
    obtain ⟨inEntry, inEntries⟩ := Bool.and_eq_true_iff.1 every
    exact ih inEntries (describeEntry_agree agree count before inEntry)

theorem describe_agree (count : Nat) {expr : Expr} (every : expr.all test = true) :
    (first.describe count (expr.withFields change)).Same wording (second.describe count expr) := by
  have dynamic : ∀ destination : String, Description.Same wording { destination } { destination } :=
    fun _ => ⟨rfl, rfl, .nil⟩
  unfold describe
  rw [Expr.qualifiedName_withFields]
  cases expr with
  | composite span type elements =>
    cases type with
    | none => exact dynamic _
    | some type =>
      simp only [Expr.withFields, exprWithFields?, Expr.qualifiedName_withFields, exprsWithFields_eq_map]
      split
      · exact describeEntries_agree agree count (Expr.all_composite every).2 ⟨rfl, rfl, .nil⟩
      · exact dynamic _
  | _ => exact dynamic _

/-! ## Exits -/

theorem subroutine_agree (count : Nat) (transition : Transition) {machine migrate exit : Expr}
    (inMigrate : migrate.all test = true) (inExit : exit.all test = true) :
    (first.subroutine count transition (machine.withFields change) (migrate.withFields change)
      (exit.withFields change)).Same wording (second.subroutine count transition machine migrate exit) := by
  have handler := refer_agree agree .migration count inMigrate
  have after := refer_agree agree .execution (count + (second.refer .migration count migrate).2.length + 1) inExit
  have length := handler.2.length_eq
  unfold subroutine
  simp only [machineName_withFields, handler.1, length, after.1, agree.signature]
  refine ⟨rfl, sameSteps_append handler.2 (.cons rfl after.2)⟩

theorem jumpTo_agree (count : Nat) (transition : Transition) (kind : Kind) {args : List Expr}
    (inArgs : ∀ arg ∈ args, arg.all test = true) :
    (first.jumpTo count transition kind (args.map (Expr.withFields change))).Same wording
      (second.jumpTo count transition kind args) := by
  cases args with
  | nil => exact ⟨rfl, .nil⟩
  | cons target args =>
    have met := refer_agree agree kind count (inArgs target List.mem_cons_self)
    exact ⟨congrArg (fun destination => [arrive transition destination]) met.1, met.2⟩

theorem jumpAsDescribed_agree (count : Nat) (transition : Transition) {args : List Expr}
    (inArgs : ∀ arg ∈ args, arg.all test = true) :
    (first.jumpAsDescribed count transition (args.map (Expr.withFields change))).Same wording
      (second.jumpAsDescribed count transition args) := by
  cases args with
  | nil => exact ⟨rfl, .nil⟩
  | cons descriptor args =>
    have said := describe_agree agree count (inArgs descriptor List.mem_cons_self)
    refine ⟨?_, said.subs⟩
    simp only [List.map_cons, jumpAsDescribed, said.destination, said.migration]

theorem perform_agree (count : Nat) (transition : Transition) {chain : Chain} (holds : chain.Holds test) :
    (first.perform count transition (chain.map (Expr.withFields change))).Same wording
      (second.perform count transition chain) := by
  have inArgs := holds.args
  have same : ∀ transitions : List Transition, Found.Same wording { transitions } { transitions } :=
    fun _ => ⟨rfl, .nil⟩
  unfold perform
  rw [Chain.name_map, Chain.args_map, Chain.isDirect_map, List.isEmpty_map]
  cases Operation.ofName chain.name with
  | callSubroutine =>
    dsimp only
    match args : chain.args with
    | [machine, migrate, exit] =>
      rw [args] at inArgs
      exact subroutine_agree agree count transition (inArgs migrate (by simp)) (inArgs exit (by simp))
    | [] | [_] | [_, _] | _ :: _ :: _ :: _ :: _ => exact same _
  | fail => exact same _
  | stop => exact same _
  | replace => exact jumpTo_agree agree count _ .construction inArgs
  | replaceWith => exact jumpTo_agree agree count _ .plain inArgs
  | repeatOrElse => exact same _
  | repeatOrJump =>
    have jump := jumpTo_agree agree count transition .execution inArgs
    dsimp only
    split
    · exact jump
    · exact ⟨congrArg (transition :: ·) jump.transitions, jump.subs⟩
  | repeatOrJumpAsDescribed =>
    have jump := jumpAsDescribed_agree agree count transition inArgs
    exact ⟨congrArg (transition :: ·) jump.transitions, jump.subs⟩
  | jumpAsDescribed => exact jumpAsDescribed_agree agree count transition inArgs
  | jump =>
    dsimp only
    split
    · exact same _
    · exact jumpTo_agree agree count _ .execution inArgs

theorem chainOf_agree (count : Nat) {update : Update} (holds : update.Holds test) :
    ∃ chain : Chain, chain.Holds test ∧ (second.chainOf count update).1 = chain ∧
      (first.chainOf count (update.map (Expr.withFields change))).1 = chain.map (Expr.withFields change) ∧
      List.Forall₂ (Outline.SameStep wording) (first.chainOf count (update.map (Expr.withFields change))).2
        (second.chainOf count update).2 := by
  cases update with
  | chain chain => exact ⟨chain, holds, rfl, rfl, .nil⟩
  | built type =>
    have met := refer_composite_agree agree .plain count default type [] []
    rw [exprWithFields?_eq_map] at met
    have holdsRoot : ∀ name : String, (Chain.root name none).Holds test := fun _ => rfl
    exact ⟨_, holdsRoot _, rfl, congrArg (Chain.root · none) met.1, met.2⟩

theorem defaultHandler_agree (count : Nat) {handler : Option Expr} (every : ∀ expr ∈ handler, expr.all test = true) :
    SameMet wording (first.defaultHandler count (handler.map (Expr.withFields change)))
      (second.defaultHandler count handler) := by
  cases handler with
  | none => exact .leaf ""
  | some handler => exact refer_agree agree .execution count (every handler rfl)

theorem transitionsOf_agree (count : Nat) {exit : Exit} (holds : exit.Holds test) :
    (first.transitionsOf count (exit.map (Expr.withFields change))).Same wording (second.transitionsOf count exit) := by
  obtain ⟨chain, chainHolds, isChain, changedChain, built⟩ := chainOf_agree agree count holds.update
  have inDefault : ∀ expr ∈ exit.defaults.migration, expr.all test = true := by
    intro expr isDefault
    refine exprsAll_iff.1 holds.defaults expr ?_
    simp [Defaults.kept, Option.mem_def.1 isDefault]
  have handlers := defaultHandler_agree agree (count + (second.chainOf count exit.update).2.length) inDefault
  unfold transitionsOf
  simp only [Exit.map, Defaults.map, changedChain, isChain, built.length_eq, handlers.1, handlers.2.length_eq,
    Option.isNone_map, agree.signature, Chain.fullName_map, Chain.waitLabel_map]
  split
  · exact ⟨rfl, sameSteps_append (sameSteps_append built handlers.2) .nil⟩
  · exact ⟨rfl, sameSteps_append (sameSteps_append built handlers.2) .nil⟩
  · have performed := perform_agree agree
      (count + (second.chainOf count exit.update).2.length + (second.defaultHandler
        (count + (second.chainOf count exit.update).2.length) exit.defaults.migration).2.length)
      { migration :=
          (second.defaultHandler (count + (second.chainOf count exit.update).2.length) exit.defaults.migration).1
        inherits := exit.defaults.migration.isNone
        operation := chain.waitLabel } chainHolds
    exact ⟨performed.transitions, sameSteps_append (sameSteps_append built handlers.2) performed.subs⟩

/-- The moves and inner steps that two tracings find are the same, one by one. -/
def SameMoves (wording : Wording) (met other : List Move × List Outline) : Prop :=
  List.Forall₂ (Move.SameTransition wording) met.1 other.1 ∧ List.Forall₂ (Outline.SameStep wording) met.2 other.2

theorem moves_agree (labels : ∀ guard : Guard, wording.label (guard.map (Expr.withFields change)) = wording.label guard)
    {exits : List Exit} (holds : ∀ exit ∈ exits, exit.Holds test) :
    SameMoves wording (first.moves (exits.map (Exit.map (Expr.withFields change)))) (second.moves exits) := by
  have guarded : ∀ (guard : Option Guard) (transition : Transition), Move.SameTransition wording
      ⟨guard.map (Guard.map (Expr.withFields change)), transition⟩ ⟨guard, transition⟩ := by
    intro guard transition
    cases guard with
    | none => rfl
    | some guard => simp only [Move.SameTransition, Wording.transition, Option.map_some, labels]
  unfold moves
  suffices follow : ∀ (exits : List Exit) (met other : List Move × List Outline), (∀ exit ∈ exits, exit.Holds test) →
      SameMoves wording met other → SameMoves wording
        ((exits.map (Exit.map (Expr.withFields change))).foldl (fun met exit =>
          let found := first.transitionsOf met.2.length exit
          (met.1 ++ found.transitions.map (Move.mk exit.guard), met.2 ++ found.subs)) met)
        (exits.foldl (fun met exit =>
          let found := second.transitionsOf met.2.length exit
          (met.1 ++ found.transitions.map (Move.mk exit.guard), met.2 ++ found.subs)) other) from
    follow exits ([], []) ([], []) holds ⟨.nil, .nil⟩
  intro exits
  induction exits with
  | nil => exact fun met other _ same => same
  | cons exit exits ih =>
    intro met other holds same
    refine ih _ _ (fun later member => holds later (List.mem_cons_of_mem _ member)) ?_
    have found := transitionsOf_agree agree other.2.length (holds exit List.mem_cons_self)
    dsimp only
    rw [same.2.length_eq]
    refine ⟨List.rel_append same.1 ?_, sameSteps_append same.2 found.subs⟩
    rw [found.transitions, List.forall₂_map_left_iff, List.forall₂_map_right_iff]
    exact List.forall₂_same.2 fun transition _ => guarded exit.guard transition

end Agree

end Tracing

/-! ## Steps -/

section Outlines

variable {wording : Wording} {change : Field → Field} {test : Expr → Bool} {framework other : String}

/-- **The same step comes out** of a body in which the fields of function literals are changed. -/
theorem sameStep_outline
    (labels : ∀ guard : Guard, wording.label (guard.map (Expr.withFields change)) = wording.label guard)
    (context : ∀ span params results body, test (.func span params results body) = true →
      findContext? other (params.map change) = findContext? framework params)
    (depth : Nat) (signature : Signature) (body : List Stmt) (every : stmtsAll test body = true) :
    Outline.SameStep wording (outline other depth signature (stmtsWithFields change body))
      (outline framework depth signature body) := by
  induction depth generalizing signature body with
  | zero => rfl
  | succ depth ih =>
    have agree : Tracing.Agree wording change test ⟨other, signature, outline other depth⟩
        ⟨framework, signature, outline framework depth⟩ := ⟨rfl, context, ih⟩
    obtain ⟨moves, subs⟩ := Tracing.moves_agree agree labels (walk_holds signature every).exits
    have same := sameStep_of signature (walk signature body).usages moves subs
    rw [outline, outline, outlineWith, outlineWith, walk_withFields]
    exact same

end Outlines

end StepChart
