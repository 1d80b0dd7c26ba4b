import StepChart.Proofs.Naming.Renaming
import StepChart.Proofs.Syntax.Samples
import StepChart.Proofs.Trace.Depth
import StepChart.Proofs.Trace.Unresolved

/-!
# Handlers that are written in place

A migration handler may be written as a function literal in three places: as the default of a step, as the migration of a
descriptor, and with the call of a subroutine. Each makes an inner step of the literal, of the kind that goes with the
place (`Route.kind`). In descriptors and calls this is a migration, which sees the context of the literal; the default is
taken for an execution, which does not. Where the kinds agree, so do the steps, up to their names
(`handler_literals_by_route`).
-/

namespace StepChart

open Syntax Text

/-! ## Places for handlers -/

/-- Where a handler is written. -/
inductive Route where
  | default
  | descriptor
  | call
deriving DecidableEq

/-- The kind of step that a function literal becomes there. -/
def Route.kind : Route → Kind
  | .default => .execution
  | .descriptor | .call => .migration

/-- What the step knows as its context, if the context of the literal is one of migrations and has this name. -/
def Route.contextArg (name : String) : Route → String
  | .default => ""
  | .descriptor | .call => name

/-- At an exit of a step with this signature, the handler is written there. -/
inductive Exit.Supplies (signature : Signature) (handler : Expr) (exit : Exit) : Route → Prop
  | default (set : exit.defaults.migration = some handler) : Supplies signature handler exit .default
  | descriptor (operates : signature.kind ≠ .initializer ∧ signature.kind ≠ .construction) {chain : Chain}
      (update : exit.update = .chain chain) (free : chain.name ∉ reservedNames)
      (asks : asksForDescriptor chain.name = true) {outer : Span} {type : Expr} {entries more : List Expr}
      (args : chain.args = .composite outer (some type) entries :: more) (isDescriptor : type.qualifiedName.2 = "SlotStep")
      {span : Span} {key : Expr} (entry : .keyValue span key handler ∈ entries)
      (isMigration : key.qualifiedName = ("", "Migration")) : Supplies signature handler exit .descriptor
  | call (operates : signature.kind ≠ .initializer ∧ signature.kind ≠ .construction) {chain : Chain}
      (update : exit.update = .chain chain) (named : chain.name = "CallSubroutine") {machine after : Expr}
      (args : chain.args = [machine, handler, after]) : Supplies signature handler exit .call

/-! ## Inner steps -/

namespace Tracing

variable (tracing : Tracing)

/-- The inner step for a function literal. -/
def literal (name : String) (kind : Kind) (params : List Field) (body : List Stmt) : Outline :=
  tracing.tracer (tracing.signature.inner tracing.framework name params kind) body

/-- Inner steps for a function literal are among these. -/
def Inlines (kind : Kind) (params : List Field) (body : List Stmt) (subs : List Outline) : Prop :=
  ∃ name, tracing.literal name kind params body ∈ subs

variable {tracing} {kind : Kind} {span : Span} {params results : List Field} {body : List Stmt}

theorem Inlines.mono {subs more : List Outline} (inlines : tracing.Inlines kind params body subs) (among : subs ⊆ more) :
    tracing.Inlines kind params body more := by
  obtain ⟨name, member⟩ := inlines
  exact ⟨name, among member⟩

theorem inlines_refer (span : Span) (results : List Field) (count : Nat) :
    tracing.Inlines kind params body (tracing.refer kind count (.func span params results body)).2 :=
  ⟨_, List.mem_singleton.2 rfl⟩

theorem subs_describeEntry (count : Nat) (said : Description) (entry : Expr) :
    said.subs ⊆ (tracing.describeEntry count said entry).subs := by
  fun_cases Tracing.describeEntry tracing count said entry with
  | case1 | case2 => exact List.subset_append_left _ _
  | case3 | case4 => exact List.Subset.refl _

theorem subs_describeEntries (count : Nat) (said : Description) (entries : List Expr) :
    said.subs ⊆ (entries.foldl (tracing.describeEntry count) said).subs := by
  induction entries generalizing said with
  | nil => exact List.Subset.refl _
  | cons entry entries ih => exact List.Subset.trans (subs_describeEntry count said entry) (ih _)

/-- A handler in a descriptor becomes an inner step, also if another entry names another handler. -/
theorem inlines_describe (count : Nat) {outer : Span} {type key : Expr} {entries : List Expr}
    (isDescriptor : type.qualifiedName.2 = "SlotStep") {inner : Span}
    (entry : .keyValue inner key (.func span params results body) ∈ entries)
    (isMigration : key.qualifiedName = ("", "Migration")) :
    tracing.Inlines .migration params body (tracing.describe count (.composite outer (some type) entries)).subs := by
  obtain ⟨before, after, rfl⟩ := List.append_of_mem entry
  rw [describe]
  simp only [isDescriptor, if_true, List.foldl_append, List.foldl_cons]
  refine Inlines.mono ?_ (subs_describeEntries count _ after)
  rw [describeEntry, isMigration]
  exact (inlines_refer span results _).mono (List.subset_append_right _ _)

theorem inlines_perform {chain : Chain} (free : chain.name ∉ reservedNames) (asks : asksForDescriptor chain.name = true)
    {outer : Span} {type key : Expr} {entries more : List Expr}
    (args : chain.args = .composite outer (some type) entries :: more)
    (isDescriptor : type.qualifiedName.2 = "SlotStep") {inner : Span}
    (entry : .keyValue inner key (.func span params results body) ∈ entries)
    (isMigration : key.qualifiedName = ("", "Migration")) (count : Nat) (transition : Transition) :
    tracing.Inlines .migration params body (tracing.perform count transition chain).subs := by
  have described : tracing.Inlines .migration params body (tracing.jumpAsDescribed count transition chain.args).subs := by
    rw [args]
    exact inlines_describe count isDescriptor entry isMigration
  unfold perform
  by_cases mayRepeat : chain.name = "ThenRepeatOrJumpExt"
  · rw [mayRepeat]
    exact described
  · rw [Operation.ofName_eq_iff.2 (show Operation.jumpAsDescribed.Spelled chain.name from ⟨free, mayRepeat, asks⟩)]
    exact described

/-- A literal becomes an inner step wherever it is written. -/
theorem inlines_transitionsOf (count : Nat) {exit : Exit} {route : Route}
    (supplies : exit.Supplies tracing.signature (.func span params results body) route) :
    tracing.Inlines route.kind params body (tracing.transitionsOf count exit).subs := by
  obtain ⟨update, guard, defaults⟩ := exit
  cases supplies with
  | default set =>
    have handlers : (tracing.defaultHandler (count + (tracing.chainOf count update).2.length) defaults.migration).2 ⊆
        (tracing.transitionsOf count ⟨update, guard, defaults⟩).subs :=
      fun _ member => List.mem_append_left _ (List.mem_append_right _ member)
    refine Inlines.mono ?_ handlers
    rw [show defaults.migration = _ from set]
    exact inlines_refer span results _
  | @descriptor operates chain isChain free asks outer type entries more args isDescriptor inner key entry isMigration =>
    obtain rfl : update = .chain chain := isChain
    rw [transitionsOf_eq tracing operates]
    refine Inlines.mono ?_ (List.subset_append_right _ _)
    exact inlines_perform free asks args isDescriptor entry isMigration _ _
  | @call operates chain isChain named machine after args =>
    obtain rfl : update = .chain chain := isChain
    rw [transitionsOf_eq tracing operates]
    refine Inlines.mono ?_ (List.subset_append_right _ _)
    simp only [chainOf, perform, named, args]
    exact (inlines_refer span results _).mono (List.subset_append_left _ _)

end Tracing

/-! ## Steps -/

/-- The step is what becomes of a function literal in a step with the given signature. -/
structure Step.FromLiteral (wording : Wording) (framework : String) (outer : Signature) (kind : Kind) (params : List Field)
    (body : List Stmt) (step : Step) : Prop where
  signature : step.signature = outer.inner framework step.name params kind
  traced : (trace framework step.signature body).toStep wording = .ok step

section Steps

variable {wording : Wording} {framework : String} {outer : Signature} {kind : Kind} {params : List Field} {body : List Stmt}

namespace Step.FromLiteral

variable {step : Step}

/-- The step is of the kind of its place, and knows its context only if that is one of its kind. -/
theorem context {route : Route} (literal : step.FromLiteral wording framework outer route.kind params body) {name : String}
    (inParams : findContext? framework params = some (.migration, name)) :
    step.kind = route.kind ∧ step.signature.contextArg = route.contextArg name := by
  rw [Step.kind, literal.signature, Signature.inner, inParams]
  cases route with
  | default | descriptor | call => exact ⟨rfl, rfl⟩

/-- The same literal gives the same step at places of the same kind, up to names. -/
theorem renamed {other : Step} {second : Signature} (literal : step.FromLiteral wording framework outer kind params body)
    (again : other.FromLiteral wording framework second kind params body)
    (receiver : outer.receiverType = second.receiverType ∧ outer.receiverName = second.receiverName) :
    step.Renamed step.name other.name other := by
  have same : other.signature = { step.signature with name := other.signature.name } := by
    rw [again.signature, literal.signature]
    simp only [Signature.inner, receiver.1, receiver.2]
  obtain ⟨twin, twinTraced, renamed⟩ := trace_renamed framework same body step literal.traced
  rw [again.traced] at twinTraced
  cases twinTraced
  exact renamed

end Step.FromLiteral

/-- A literal becomes a step inside the step in which it is written. -/
theorem exists_fromLiteral {whole : List Stmt} {step : Step}
    (traced : (trace framework outer whole).toStep wording = .ok step) {handed : Handed}
    (isHanded : handed ∈ trail framework outer whole) {span : Span} {results : List Field} {route : Route}
    (supplies : handed.exit.Supplies outer (.func span params results body) route) :
    ∃ sub ∈ step.subSteps, sub.FromLiteral wording framework outer route.kind params body := by
  obtain ⟨before, after, split⟩ := List.append_of_mem isHanded
  have inlines : Tracing.Inlines ⟨framework, outer, trace framework⟩ route.kind params body handed.subs := by
    rw [Handed.subs, found_of_trail split]
    exact Tracing.inlines_transitionsOf _ supplies
  obtain ⟨name, inHanded⟩ := inlines
  have inTrace : trace framework (outer.inner framework name params route.kind) body ∈
      (trace framework outer whole).subSteps := by
    rw [(trace_eq_trail framework outer whole).2]
    exact List.mem_flatMap.2 ⟨handed, isHanded, inHanded⟩
  obtain ⟨sub, isSub, worded⟩ := exists_of_mem_forall₂ (toStep_worded traced).inner.flip inTrace
  have signature : sub.signature = outer.inner framework name params route.kind := (toStep_worded worded).signature
  have sameName : sub.name = name := congrArg Signature.name signature
  refine ⟨sub, isSub, ?_, ?_⟩
  · rw [sameName]
    exact signature
  · rw [signature]
    exact worded

/-- **A handler that is written in place becomes a step of the kind of its place.** If its context is one of migrations, the
step is a migration with that context for a descriptor and for the call of a subroutine, and an execution without context
for a default. Two steps of the same kind that come from one literal are the same up to their names, whatever steps of the
same receiver it is written in. -/
theorem handler_literals_by_route {first second : Signature} {whole otherWhole : List Stmt} {step otherStep : Step}
    (traced : (trace framework first whole).toStep wording = .ok step)
    (otherTraced : (trace framework second otherWhole).toStep wording = .ok otherStep)
    (receiver : first.receiverType = second.receiverType ∧ first.receiverName = second.receiverName)
    {handed otherHanded : Handed} (isHanded : handed ∈ trail framework first whole)
    (isOther : otherHanded ∈ trail framework second otherWhole) {span : Span} {results : List Field} {name : String}
    (inParams : findContext? framework params = some (.migration, name)) {route otherRoute : Route}
    (supplies : handed.exit.Supplies first (.func span params results body) route)
    (otherSupplies : otherHanded.exit.Supplies second (.func span params results body) otherRoute) :
    ∃ sub ∈ step.subSteps, ∃ other ∈ otherStep.subSteps,
      sub.FromLiteral wording framework first route.kind params body ∧
      other.FromLiteral wording framework second otherRoute.kind params body ∧
      (sub.kind = route.kind ∧ sub.signature.contextArg = route.contextArg name) ∧
      (other.kind = otherRoute.kind ∧ other.signature.contextArg = otherRoute.contextArg name) ∧
      (route.kind = otherRoute.kind → sub.Renamed sub.name other.name other) := by
  obtain ⟨sub, isSub, literal⟩ := exists_fromLiteral traced isHanded supplies
  obtain ⟨other, isOtherSub, otherLiteral⟩ := exists_fromLiteral otherTraced isOther otherSupplies
  refine ⟨sub, isSub, other, isOtherSub, literal, otherLiteral, literal.context inParams, otherLiteral.context inParams, ?_⟩
  intro sameKind
  rw [← sameKind] at otherLiteral
  exact literal.renamed otherLiteral receiver

end Steps

/-- A step of a machine. -/
def supplySignature : Signature :=
  { receiverType := "Worker", receiverName := some "s", name := "supply", kind := .execution, contextArg := "ctx"
    updateIndex := 1 }

/-- The parameters of a handler: a context of migrations. -/
def handlerParams : List Field := [.mk ["c"] (Sample.qualified "smachine" "MigrationContext") false]

/-- The body of the handler: a jump, on its own context. -/
def handlerBody : List Stmt :=
  [.ret [.call default (Sample.qualified "c" "Jump") [Sample.ident "moved"]]]

/-- The handler as a literal. -/
def handlerLiteral : Expr := .func default handlerParams [] handlerBody

/-- A descriptor with the handler. -/
def handlingSlotStep : Expr :=
  .composite default (some (Sample.qualified "smachine" "SlotStep"))
    [.keyValue default (Sample.ident "Transition") (Sample.ident "work"),
      .keyValue default (Sample.ident "Migration") handlerLiteral]

/-- The handler stands in a descriptor, and with the call of a subroutine. -/
def supplyBody : List Stmt :=
  [.ifElse (Sample.ident "busy") [.ret [Sample.onContext "JumpExt" [handlingSlotStep]]] none,
    .ret [Sample.onContext "CallSubroutine" [Sample.ident "sub", handlerLiteral, Sample.ident "work"]]]

/-- Both times it becomes a migration with its context. -/
theorem handler_literals_by_route_supply : ∃ step,
    (trace "smachine" supplySignature supplyBody).toStep ⟨fun _ => .ok "", 30⟩ = .ok step ∧
    step.subSteps.map (fun sub => (sub.name, sub.kind, sub.signature.contextArg)) =
      [("supply.1", .migration, "c"), ("supply.2", .migration, "c"), ("supply.sub.3", .plain, "")] ∧
    ∃ sub ∈ step.subSteps, ∃ other ∈ step.subSteps, sub.Renamed sub.name other.name other := by
  refine ⟨_, rfl, by decide +kernel, ?_⟩
  have described : Exit.Supplies supplySignature handlerLiteral
      ⟨.chain (.child (.context none) "JumpExt" (some [handlingSlotStep])), some ⟨[Sample.ident "busy"], false⟩, {}⟩
      .descriptor :=
    .descriptor (by decide) rfl (by decide) (by decide) rfl (by decide) (List.mem_of_getElem? (i := 1) rfl) rfl
  have called : Exit.Supplies supplySignature handlerLiteral
      ⟨.chain (.child (.context none) "CallSubroutine"
        (some [Sample.ident "sub", handlerLiteral, Sample.ident "work"])), none, {}⟩ .call :=
    .call (by decide) rfl rfl rfl
  obtain ⟨sub, isSub, other, isOther, -, -, -, -, same⟩ :=
    @handler_literals_by_route ⟨fun _ => .ok "", 30⟩ "smachine" handlerParams handlerBody supplySignature supplySignature
      supplyBody supplyBody _ _ rfl rfl ⟨rfl, rfl⟩ ⟨[0, 0, 0], _, _⟩ ⟨[1], _, _⟩ (List.mem_of_getElem? (i := 0) rfl)
      (List.mem_of_getElem? (i := 1) rfl) default [] "c" rfl .descriptor .call described called
  exact ⟨sub, isSub, other, isOther, same rfl⟩

/-- The handler is the default of the step. -/
def presetBody : List Stmt :=
  [.expr (Sample.onContext "SetDefaultMigration" [handlerLiteral]), .ret [Sample.onContext "Jump" [Sample.ident "work"]]]

/-- The step with that body. -/
def presetStep : Step := ((trace "smachine" supplySignature presetBody).toStep ⟨fun _ => .ok "", 30⟩).toOption.getD default

/-- **Not every handler becomes a migration**: a default does not, and so the context of the literal is lost. -/
theorem default_handler_no_migration : ¬ ∀ (wording : Wording) (framework : String) (outer : Signature) (whole : List Stmt)
    (step : Step), (trace framework outer whole).toStep wording = .ok step →
    ∀ handed ∈ trail framework outer whole, ∀ (span : Span) (params results : List Field) (body : List Stmt) (name : String)
      (route : Route), findContext? framework params = some (.migration, name) →
      handed.exit.Supplies outer (.func span params results body) route →
      ∃ sub ∈ step.subSteps, sub.kind = .migration ∧ sub.signature.contextArg = name := by
  intro migrations
  have supplied : Exit.Supplies supplySignature handlerLiteral
      ⟨.chain (.child (.context none) "Jump" (some [Sample.ident "work"])), none, { migration := some handlerLiteral }⟩
      .default := .default rfl
  have executions : ∀ sub ∈ presetStep.subSteps, sub.kind = .execution := by decide +kernel
  obtain ⟨sub, isSub, isMigration, -⟩ := migrations ⟨fun _ => .ok "", 30⟩ "smachine" supplySignature presetBody presetStep
    rfl ⟨[1], _, _⟩ (List.mem_of_getElem? (i := 0) rfl) default handlerParams [] handlerBody "c" .default rfl supplied
  rw [executions sub isSub] at isMigration
  cases isMigration

end StepChart
