import StepChart.Proofs.Naming.Destinations
import StepChart.Proofs.Syntax.Samples
import StepChart.Proofs.Trace.Depth
import StepChart.Proofs.Trace.Worded

/-!
# Calls of subroutines

A return that calls a subroutine gives its step one flagged inner step and one transition into it. The inner step stands
where its number says and leads to the step that runs after the subroutine; the handler of the transition is kept there.
Both are read off the arguments of the call (`Tracing.subroutineCall`), and nothing else gives a transition a step to
resume with (`subroutines_wired`).
-/

namespace StepChart

open Syntax Text

/-! ## Calls -/

/-- What the arguments of a call come to. -/
structure SubroutineCall where
  /-- The place of the subroutine among the inner steps. -/
  index : Nat
  name : String
  /-- The handler that is in force while the subroutine runs; empty if there is none. -/
  handler : String
  /-- The step that runs after the subroutine; empty if there is none. -/
  resumption : String
deriving DecidableEq

/-- The call after `count` inner steps, where `defaults` are in force. The default handler and the handler of the call come
before the subroutine; the handler of the call, if it has one, counts. -/
def Tracing.subroutineCall (tracing : Tracing) (count : Nat) (defaults : Defaults) (machine migrate exit : Expr) :
    SubroutineCall :=
  let preset := tracing.defaultHandler count defaults.migration
  let own := tracing.refer .migration (count + preset.2.length) migrate
  let index := count + preset.2.length + own.2.length
  { index
    name := tracing.signature.name ++ "." ++ machineName machine ++ "." ++ toString (index + 1)
    handler := if own.1.isEmpty then preset.1 else own.1
    resumption := (tracing.refer .execution (index + 1) exit).1 }

/-- After the exits `before`, the body returns a call of a subroutine with three arguments. -/
inductive CallsAfter (framework : String) (signature : Signature) (body : List Stmt) (before : List Handed)
    (handed : Handed) : (call : SubroutineCall) → Prop
  | intro {after : List Handed} {chain : Chain} {machine migrate exit : Expr}
      (split : trail framework signature body = before ++ handed :: after) (written : handed.exit.update = .chain chain)
      (isCall : chain.name = "CallSubroutine") (args : chain.args = [machine, migrate, exit]) :
      CallsAfter framework signature body before handed
        (Tracing.subroutineCall ⟨framework, signature, trace framework⟩ (before.flatMap Handed.subs).length
          handed.exit.defaults machine migrate exit)

/-- The transition into the subroutine. -/
structure Transition.Enters (transition : Transition) (call : SubroutineCall) : Prop where
  operation : transition.operation = "CallSubroutine"
  destination : transition.destination = call.name
  migration : transition.migration = ""
  resumption : transition.resumption = call.resumption

/-! ## Outlines -/

namespace Tracing

variable (tracing : Tracing)

/-- The inner step that runs a subroutine. -/
def entered (call : SubroutineCall) : Outline :=
  { signature := tracing.signature.inner tracing.framework call.name [] .plain
    moves := [{ transition := { destination := call.resumption } }]
    migrations := if call.handler.isEmpty then .empty else .ofList [call.handler]
    isSubroutine := true }

/-- What a call hands over after `count` inner steps. -/
structure Runs (count : Nat) (call : SubroutineCall) (found : Found) : Prop where
  transition : ∃ transition, found.transitions = [transition] ∧ transition.Enters call
  subs : ∃ front back, found.subs = front ++ tracing.entered call :: back ∧ count + front.length = call.index ∧
    ∀ sub ∈ front ++ back, sub.isSubroutine = false

variable {tracing}

/-- The only flagged inner step of a call is the one that runs the subroutine. -/
theorem Runs.flagged {count : Nat} {call : SubroutineCall} {found : Found} (runs : tracing.Runs count call found) :
    found.subs.filter (·.isSubroutine) = [tracing.entered call] := by
  obtain ⟨front, back, subs, -, unflagged⟩ := runs.subs
  rw [List.forall_mem_append] at unflagged
  rw [subs, List.filter_append, List.filter_cons_of_pos rfl,
    List.filter_eq_nil_iff.2 fun sub member => by simp [unflagged.1 sub member],
    List.filter_eq_nil_iff.2 fun sub member => by simp [unflagged.2 sub member]]
  rfl

/-- Among all inner steps, it stands at the place of the call, whatever follows. -/
theorem Runs.at_index {before : List Outline} {call : SubroutineCall} {found : Found}
    (runs : tracing.Runs before.length call found) (after : List Outline) :
    (before ++ (found.subs ++ after))[call.index]? = some (tracing.entered call) := by
  obtain ⟨front, back, subs, place, -⟩ := runs.subs
  rw [subs, ← place, List.getElem?_append_right (by omega), Nat.add_sub_cancel_left]
  simp

/-- A name or a function literal is never flagged. -/
theorem refer_unflagged (unflagged : ∀ signature body, (tracing.tracer signature body).isSubroutine = false) {kind : Kind}
    (notPlain : kind ≠ .plain) (count : Nat) (expr : Expr) :
    ∀ sub ∈ (tracing.refer kind count expr).2, sub.isSubroutine = false := by
  fun_induction Tracing.refer tracing kind count expr with
  | case1 => simp
  | case2 span operand _ ih => exact ih
  | case3 span type elements isPlain => exact absurd isPlain notPlain
  | case4 => simp
  | case5 span params results body name signature => simpa using unflagged signature body
  | case6 => simp

theorem defaultHandler_unflagged (unflagged : ∀ signature body, (tracing.tracer signature body).isSubroutine = false)
    (count : Nat) (handler : Option Expr) : ∀ sub ∈ (tracing.defaultHandler count handler).2, sub.isSubroutine = false := by
  cases handler with
  | none => simp [defaultHandler]
  | some handler => exact refer_unflagged unflagged (by decide) count handler

theorem migration_handledBy (transition : Transition) (migration : String) :
    (handledBy transition migration).migration = if migration.isEmpty then transition.migration else migration := by
  unfold handledBy
  split <;> rfl

/-- A call is made after the inner step of the default handler, if it has one. -/
theorem transitionsOf_call (kind : tracing.signature.kind ≠ .initializer ∧ tracing.signature.kind ≠ .construction)
    (count : Nat) {chain : Chain} {machine migrate exit : Expr} (isCall : chain.name = "CallSubroutine")
    (args : chain.args = [machine, migrate, exit]) (guard : Option Guard) (defaults : Defaults) :
    tracing.transitionsOf count ⟨.chain chain, guard, defaults⟩ =
      let preset := tracing.defaultHandler count defaults.migration
      let found := tracing.subroutine (count + preset.2.length)
        { operation := chain.waitLabel, migration := preset.1, inherits := defaults.migration.isNone } machine migrate exit
      { found with subs := preset.2 ++ found.subs } := by
  have performs : ∀ number transition, tracing.perform number transition chain =
      tracing.subroutine number transition machine migrate exit := by
    intro number transition
    unfold perform
    rw [isCall, args]
    rfl
  rw [tracing.transitionsOf_eq kind]
  dsimp only [chainOf]
  rw [performs]
  rfl

/-- **What a call hands over**, after `count` inner steps. -/
theorem transitionsOf_runs (unflagged : ∀ signature body, (tracing.tracer signature body).isSubroutine = false)
    (kind : tracing.signature.kind ≠ .initializer ∧ tracing.signature.kind ≠ .construction) (count : Nat) {chain : Chain}
    {machine migrate exit : Expr} (isCall : chain.name = "CallSubroutine") (args : chain.args = [machine, migrate, exit])
    (guard : Option Guard) (defaults : Defaults) :
    tracing.Runs count (tracing.subroutineCall count defaults machine migrate exit)
      (tracing.transitionsOf count ⟨.chain chain, guard, defaults⟩) := by
  have presets := defaultHandler_unflagged unflagged count defaults.migration
  have owns := refer_unflagged unflagged (show Kind.migration ≠ .plain by decide)
    (count + (tracing.defaultHandler count defaults.migration).2.length) migrate
  have afters := refer_unflagged unflagged (show Kind.execution ≠ .plain by decide)
    ((tracing.subroutineCall count defaults machine migrate exit).index + 1) exit
  rw [transitionsOf_call kind count isCall args]
  refine ⟨⟨_, rfl, rfl, rfl, rfl, rfl⟩,
    (tracing.defaultHandler count defaults.migration).2 ++
      (tracing.refer .migration (count + (tracing.defaultHandler count defaults.migration).2.length) migrate).2,
    (tracing.refer .execution ((tracing.subroutineCall count defaults machine migrate exit).index + 1) exit).2, ?_, ?_, ?_⟩
  · simp only [subroutine, migration_handledBy, List.append_assoc]
    rfl
  · simp only [subroutineCall, List.length_append, Nat.add_assoc]
  · simp only [List.forall_mem_append]
    exact ⟨⟨presets, owns⟩, afters⟩

/-- The name of the subroutine tells its place. -/
theorem names_subroutineCall (count : Nat) (defaults : Defaults) {machine : Expr} (migrate exit : Expr)
    (inMachine : machine.all isNamed = true) :
    Role.subroutine.Names tracing.signature.name (tracing.subroutineCall count defaults machine migrate exit).index
      (tracing.subroutineCall count defaults machine migrate exit).name :=
  ⟨machineName machine, undigited_machineName inMachine, rfl⟩

/-! ## Nothing else resumes -/

theorem resumption_handledBy (transition : Transition) (migration : String) :
    (handledBy transition migration).resumption = transition.resumption := by
  unfold handledBy
  split <;> rfl

variable {count : Nat} {transition found : Transition} {args : List Expr}

theorem jumpTo_resumption {kind : Kind} (member : found ∈ (tracing.jumpTo count transition kind args).transitions) :
    found.resumption = transition.resumption := by
  cases args <;> rw [List.mem_singleton.1 member] <;> rfl

theorem jumpAsDescribed_resumption (member : found ∈ (tracing.jumpAsDescribed count transition args).transitions) :
    found.resumption = transition.resumption := by
  cases args with
  | nil =>
    rw [List.mem_singleton.1 member]
    rfl
  | cons descriptor args =>
    rw [List.mem_singleton.1 member]
    exact resumption_handledBy transition _

theorem ofName_eq_callSubroutine {name : String} (isCall : Operation.ofName name = .callSubroutine) :
    name = "CallSubroutine" := by
  unfold Operation.ofName at isCall
  split at isCall
  case h_1 => rfl
  case h_10 => split at isCall <;> cases isCall
  all_goals cases isCall

/-- Only a call with three arguments sets the step to resume with. -/
theorem perform_resumption {chain : Chain} (member : found ∈ (tracing.perform count transition chain).transitions) :
    found.resumption = transition.resumption ∨
      chain.name = "CallSubroutine" ∧ ∃ machine migrate exit, chain.args = [machine, migrate, exit] := by
  unfold perform at member
  cases operation : Operation.ofName chain.name with
  | callSubroutine =>
    simp only [operation] at member
    split at member
    next machine migrate exit args => exact .inr ⟨ofName_eq_callSubroutine operation, machine, migrate, exit, args⟩
    next =>
      rw [List.mem_singleton.1 member]
      exact .inl rfl
  | fail | stop | repeatOrElse =>
    simp only [operation] at member
    rw [List.mem_singleton.1 member]
    exact .inl rfl
  | replace | replaceWith =>
    simp only [operation] at member
    have same := jumpTo_resumption member
    exact .inl same
  | repeatOrJump =>
    simp only [operation] at member
    left
    split at member
    · exact jumpTo_resumption member
    · rcases List.mem_cons.1 member with rfl | jumps
      · rfl
      · exact jumpTo_resumption jumps
  | repeatOrJumpAsDescribed =>
    simp only [operation] at member
    rcases List.mem_cons.1 member with rfl | jumps
    · exact .inl rfl
    · exact .inl (jumpAsDescribed_resumption jumps)
  | jumpAsDescribed =>
    simp only [operation] at member
    exact .inl (jumpAsDescribed_resumption member)
  | jump =>
    simp only [operation] at member
    left
    split at member
    · rw [List.mem_singleton.1 member]
    · have same := jumpTo_resumption member
      exact same

/-- A transition that resumes with a step belongs to a call of a subroutine. -/
theorem transitionsOf_resumption {exit : Exit}
    (member : found ∈ (tracing.transitionsOf count exit).transitions) (resumes : found.resumption ≠ "") :
    ∃ chain machine migrate after, exit.update = .chain chain ∧ chain.name = "CallSubroutine" ∧
      chain.args = [machine, migrate, after] := by
  unfold transitionsOf at member
  dsimp only at member
  split at member
  · rw [List.mem_singleton.1 member] at resumes
    exact absurd rfl resumes
  · rw [List.mem_singleton.1 member] at resumes
    exact absurd rfl resumes
  · rcases perform_resumption member with same | ⟨isCall, machine, migrate, after, args⟩
    · exact absurd same resumes
    · cases written : exit.update with
      | chain chain =>
        rw [written] at isCall args
        exact ⟨chain, machine, migrate, after, rfl, isCall, args⟩
      | built type =>
        rw [written] at args
        cases args

end Tracing

/-! ## Steps -/

/-- The inner step that runs a subroutine. -/
structure Step.Runs (step : Step) (call : SubroutineCall) : Prop where
  flag : step.isSubroutine = true
  kind : step.kind = .plain
  name : step.name = call.name
  transitions : step.transitions = [{ destination := call.resumption, inherits := false }]
  handlers : step.migrations.toList = if call.handler.isEmpty then [] else [call.handler]

/-- The step has one inner step and one transition for a call whose return gives rise to `length` inner steps after the
first `count`. -/
structure Step.Wires (step : Step) (count length : Nat) (call : SubroutineCall) : Prop where
  inner : ∃ sub, ((step.subSteps.drop count).take length).filter (·.isSubroutine) = [sub] ∧
    step.subSteps[call.index]? = some sub ∧ sub.Runs call
  transition : ∃ transition, step.transitions.filter (·.destination = call.name) = [transition] ∧ transition.Enters call

section Steps

variable {wording : Wording} {framework : String} {signature : Signature} {body : List Stmt} {step : Step}

theorem runs_entered {tracing : Tracing} {call : SubroutineCall} (worded : (tracing.entered call).toStep wording = .ok step) :
    step.Runs call := by
  have kept : step =
      { signature := (tracing.entered call).signature
        transitions := [{ destination := call.resumption }]
        repeatIndex? := if call.resumption.isEmpty then some 0 else none
        migrations := (tracing.entered call).migrations
        isSubroutine := true } := by
    unfold Tracing.entered Outline.toStep at worded
    simp only [Outline.toSteps, Wording.addMoves, Wording.transition] at worded
    rw [Step.addTransition_first rfl rfl _ rfl] at worded
    exact (Except.ok.inj worded).symm
  subst kept
  refine ⟨rfl, rfl, rfl, rfl, ?_⟩
  unfold Tracing.entered
  dsimp only
  split <;> rfl

/-- The moves of an exit lead to its own inner steps, or to plain names. -/
theorem moves_lead (named : stmtsAll isNamed body = true)
    (kind : signature.kind ≠ .initializer ∧ signature.kind ≠ .construction) {before after : List Handed} {handed : Handed}
    (split : trail framework signature body = before ++ handed :: after) :
    ∀ move ∈ handed.moves, Leads signature.name (before.flatMap Handed.subs).length handed.subs.length
      move.transition.destination := by
  have holds : handed.exit.Holds isNamed := exit_holds_of_trail named (split ▸ List.mem_append_right _ List.mem_cons_self)
  have leads := Tracing.transitionsOf_leads ⟨framework, signature, trace framework⟩ kind
    (before.flatMap Handed.subs).length holds
  rw [← found_of_trail split] at leads
  exact List.forall_mem_map.2 leads

/-- The exits before and after a call do not lead into the subroutine. -/
theorem elsewhere_leads (named : stmtsAll isNamed body = true)
    (kind : signature.kind ≠ .initializer ∧ signature.kind ≠ .construction) {before after : List Handed} {handed : Handed}
    (split : trail framework signature body = before ++ handed :: after) {index : Nat} {name : String}
    (names : Role.subroutine.Names signature.name index name) (above : (before.flatMap Handed.subs).length ≤ index)
    (below : index < (before.flatMap Handed.subs).length + handed.subs.length) :
    ∀ other ∈ before ++ after, ∀ move ∈ other.moves, move.transition.destination ≠ name := by
  intro other member move inOther
  rcases List.mem_append.1 member with earlier | later
  · obtain ⟨front, back, rfl⟩ := List.append_of_mem earlier
    have at_other : trail framework signature body = front ++ other :: (back ++ handed :: after) := by simpa using split
    refine (moves_lead named kind at_other move inOther).ne_subroutine names (.inr (Nat.le_trans ?_ above))
    simp only [List.flatMap_append, List.flatMap_cons, List.length_append]
    omega
  · obtain ⟨front, back, rfl⟩ := List.append_of_mem later
    have at_other : trail framework signature body = (before ++ handed :: front) ++ other :: back := by simpa using split
    refine (moves_lead named kind at_other move inOther).ne_subroutine names (.inl ?_)
    simp only [List.flatMap_append, List.flatMap_cons, List.length_append]
    omega

theorem CallsAfter.split {before : List Handed} {handed : Handed} {call : SubroutineCall}
    (calls : CallsAfter framework signature body before handed call) :
    ∃ after, trail framework signature body = before ++ handed :: after := by
  obtain ⟨split, -, -, -⟩ := calls
  exact ⟨_, split⟩

/-- What a call in a body hands over. -/
theorem CallsAfter.runs (kind : signature.kind ≠ .initializer ∧ signature.kind ≠ .construction) {before : List Handed}
    {handed : Handed} {call : SubroutineCall} (calls : CallsAfter framework signature body before handed call) :
    Tracing.Runs ⟨framework, signature, trace framework⟩ (before.flatMap Handed.subs).length call handed.found := by
  obtain @⟨after, chain, machine, migrate, exit, split, written, isCall, args⟩ := calls
  have runs := @Tracing.transitionsOf_runs ⟨framework, signature, trace framework⟩ (fun _ _ => rfl) kind
    (before.flatMap Handed.subs).length chain machine migrate exit isCall args handed.exit.guard handed.exit.defaults
  rw [found_of_trail split]
  rwa [← written] at runs

theorem CallsAfter.names (named : stmtsAll isNamed body = true) {before : List Handed} {handed : Handed}
    {call : SubroutineCall} (calls : CallsAfter framework signature body before handed call) :
    Role.subroutine.Names signature.name call.index call.name := by
  obtain @⟨after, chain, machine, migrate, exit, split, written, isCall, args⟩ := calls
  have holds : handed.exit.Holds isNamed := exit_holds_of_trail named (split ▸ List.mem_append_right _ List.mem_cons_self)
  have inChain := holds.update
  rw [written] at inChain
  have inArgs := Chain.Holds.args inChain
  rw [args] at inArgs
  exact Tracing.names_subroutineCall _ _ migrate exit (inArgs machine (by simp))

theorem CallsAfter.name_ne_empty (named : stmtsAll isNamed body = true) {before : List Handed} {handed : Handed}
    {call : SubroutineCall} (calls : CallsAfter framework signature body before handed call) : call.name ≠ "" := by
  intro empty
  have notPlain := (calls.names named).isPlain_eq_false
  rw [empty] at notPlain
  exact absurd notPlain (by decide)

/-! ## Wiring -/

/-- The inner step of a call stands at its place, and is the only flagged one among those of its return. -/
theorem CallsAfter.inner (kind : signature.kind ≠ .initializer ∧ signature.kind ≠ .construction)
    (traced : (trace framework signature body).toStep wording = .ok step) {before : List Handed} {handed : Handed}
    {call : SubroutineCall} (calls : CallsAfter framework signature body before handed call) :
    ∃ sub, ((step.subSteps.drop (before.flatMap Handed.subs).length).take handed.subs.length).filter (·.isSubroutine) = [sub] ∧
      step.subSteps[call.index]? = some sub ∧ sub.Runs call := by
  have runs := calls.runs kind
  obtain ⟨after, split⟩ := calls.split
  have inner := (toStep_worded traced).inner
  rw [(trace_eq_trail framework signature body).2, split, List.flatMap_append, List.flatMap_cons] at inner
  have slice := List.forall₂_take handed.subs.length (List.forall₂_drop (before.flatMap Handed.subs).length inner)
  rw [List.drop_left, List.take_left] at slice
  have agree : ∀ (outline : Outline) (step : Step), outline.toStep wording = .ok step →
      outline.isSubroutine = step.isSubroutine := fun outline step worded => (toStep_worded worded).flag.symm
  obtain ⟨sub, only, worded⟩ := exists_filter_eq_singleton agree slice runs.flagged
  refine ⟨sub, only, ?_, runs_entered worded⟩
  -- the place of the inner step is that of its outline
  have there := runs.at_index (after.flatMap Handed.subs)
  have inBounds : call.index < step.subSteps.length := by
    rw [← inner.length_eq]
    exact (List.getElem?_eq_some_iff.1 there).1
  have found := List.getElem?_eq_getElem inBounds
  obtain ⟨outline, isOutline, wordedThere⟩ := toSteps_ok (toStep_ok traced).1 found
  rw [(trace_eq_trail framework signature body).2, split, List.flatMap_append, List.flatMap_cons] at isOutline
  rw [← Option.some.inj (there.symm.trans isOutline), worded] at wordedThere
  rw [found, Except.ok.inj wordedThere]

theorem filter_destination {name : String} (nonempty : name ≠ "") (transitions : List Transition) :
    (transitions.filter (!·.isRepeat)).filter (·.destination = name) = transitions.filter (·.destination = name) := by
  rw [List.filter_filter]
  refine List.filter_congr fun transition _ => ?_
  by_cases same : transition.destination = name
  · simp [Transition.isRepeat, same, nonempty]
  · simp [same]

/-- Of the moves of a body, one enters the subroutine of a call. -/
theorem CallsAfter.move (named : stmtsAll isNamed body = true)
    (kind : signature.kind ≠ .initializer ∧ signature.kind ≠ .construction) {before : List Handed} {handed : Handed}
    {call : SubroutineCall} (calls : CallsAfter framework signature body before handed call) :
    ∃ move, (trace framework signature body).moves.filter (·.transition.destination = call.name) = [move] ∧
      move.transition.Enters call := by
  obtain ⟨⟨transition, only, enters⟩, front, back, subs, place, -⟩ := calls.runs kind
  obtain ⟨after, split⟩ := calls.split
  have elsewhere := elsewhere_leads named kind split (calls.names named) (by omega) (by
    rw [Handed.subs, subs, List.length_append, List.length_cons]
    omega)
  have none : ∀ others : List Handed, (∀ other ∈ others, ∀ move ∈ other.moves, move.transition.destination ≠ call.name) →
      (others.flatMap Handed.moves).filter (·.transition.destination = call.name) = [] := by
    intro others apart
    rw [List.filter_eq_nil_iff]
    intro move member
    obtain ⟨other, isOther, inOther⟩ := List.mem_flatMap.1 member
    simpa using apart other isOther move inOther
  rw [List.forall_mem_append] at elsewhere
  refine ⟨⟨handed.exit.guard, transition⟩, ?_, enters⟩
  rw [(trace_eq_trail framework signature body).1, split, List.flatMap_append, List.flatMap_cons, List.filter_append,
    List.filter_append, none before elsewhere.1, none after elsewhere.2, Handed.moves, only]
  simp [enters.destination]

theorem Transition.Enters.worded {move : Move} {transition : Transition} {call : SubroutineCall}
    (enters : move.transition.Enters call) (worded : move.Worded transition) : transition.Enters call := by
  obtain ⟨condition, rfl⟩ := worded
  exact ⟨enters.operation, enters.destination, enters.migration, enters.resumption⟩

/-- Of the transitions of a step, one enters the subroutine of a call. -/
theorem CallsAfter.transition (named : stmtsAll isNamed body = true)
    (kind : signature.kind ≠ .initializer ∧ signature.kind ≠ .construction)
    (traced : (trace framework signature body).toStep wording = .ok step) {before : List Handed} {handed : Handed}
    {call : SubroutineCall} (calls : CallsAfter framework signature body before handed call) :
    ∃ transition, step.transitions.filter (·.destination = call.name) = [transition] ∧ transition.Enters call := by
  obtain ⟨move, one, enters⟩ := calls.move named kind
  obtain ⟨transitions, inWords, onward, -⟩ := (toStep_worded traced).moves
  have nonempty := calls.name_ne_empty named
  have agree : ∀ (move : Move) (transition : Transition), move.Worded transition →
      decide (move.transition.destination = call.name) = decide (transition.destination = call.name) := by
    rintro move transition ⟨condition, rfl⟩
    rfl
  obtain ⟨transition, only, worded⟩ := exists_filter_eq_singleton agree inWords one
  refine ⟨transition, ?_, enters.worded worded⟩
  rw [← filter_destination nonempty, onward, filter_destination nonempty, only]

/-- A move that resumes with a step enters the subroutine of a call. -/
theorem enters_of_resumption (kind : signature.kind ≠ .initializer ∧ signature.kind ≠ .construction) {move : Move}
    (member : move ∈ (trace framework signature body).moves) (resumes : move.transition.resumption ≠ "") :
    ∃ before handed call, CallsAfter framework signature body before handed call ∧ move.transition.Enters call := by
  rw [(trace_eq_trail framework signature body).1] at member
  obtain ⟨handed, isHanded, inHanded⟩ := List.mem_flatMap.1 member
  obtain ⟨before, after, split⟩ := List.append_of_mem isHanded
  obtain ⟨transition, found, rfl⟩ := List.mem_map.1 inHanded
  have foundThere := found
  rw [found_of_trail split] at foundThere
  obtain ⟨chain, machine, migrate, exit, written, isCall, args⟩ := Tracing.transitionsOf_resumption foundThere resumes
  have calls := CallsAfter.intro split written isCall args
  obtain ⟨only, same, enters⟩ := (calls.runs kind).transition
  rw [same] at found
  exact ⟨before, handed, _, calls, List.mem_singleton.1 found ▸ enters⟩

/-- A transition that resumes with a step enters the subroutine of a call. -/
theorem transition_enters_of_resumption (named : stmtsAll isNamed body = true)
    (kind : signature.kind ≠ .initializer ∧ signature.kind ≠ .construction)
    (traced : (trace framework signature body).toStep wording = .ok step) {transition : Transition}
    (member : transition ∈ step.transitions) (resumes : transition.resumption ≠ "") :
    ∃ before handed call, CallsAfter framework signature body before handed call ∧ transition.Enters call := by
  obtain ⟨transitions, inWords, onward, folded⟩ := (toStep_worded traced).moves
  have enters : ∀ other ∈ transitions, other.resumption ≠ "" →
      ∃ before handed call, CallsAfter framework signature body before handed call ∧ other.Enters call := by
    intro other isOther otherResumes
    obtain ⟨move, isMove, worded⟩ := exists_of_mem_forall₂ inWords isOther
    have moveResumes : move.transition.resumption ≠ "" := by
      obtain ⟨condition, rfl⟩ := worded
      exact otherResumes
    obtain ⟨before, handed, call, calls, moveEnters⟩ := enters_of_resumption kind isMove moveResumes
    exact ⟨before, handed, call, calls, moveEnters.worded worded⟩
  -- folding changes repeats only, and a transition into a subroutine is none
  have leadsOn : transition.isRepeat = false := by
    refine folded (fun other => other.resumption ≠ "" → other.isRepeat = false) (fun _ _ same => same) ?_ transition member
      resumes
    intro other isOther otherResumes
    obtain ⟨before, handed, call, calls, otherEnters⟩ := enters other isOther otherResumes
    simpa [Transition.isRepeat, otherEnters.destination] using calls.name_ne_empty named
  have kept : transition ∈ transitions.filter (!·.isRepeat) := by
    rw [← onward]
    exact List.mem_filter.2 ⟨member, by simp [leadsOn]⟩
  exact enters transition (List.mem_filter.1 kept).1 resumes

/-- **Calls of subroutines are wired.** In a step that is neither an initializer nor a constructor, each return that calls
a subroutine has one inner step and one transition into it, and a transition that resumes with a step is that of such a
return. Inner steps that are not flagged are traced the same way. -/
theorem subroutines_wired (named : stmtsAll isNamed body = true)
    (kind : signature.kind ≠ .initializer ∧ signature.kind ≠ .construction)
    (traced : (trace framework signature body).toStep wording = .ok step) :
    (walk signature body).exits = (trail framework signature body).map Handed.exit ∧
      (∀ before handed call, CallsAfter framework signature body before handed call →
        step.Wires (before.flatMap Handed.subs).length handed.subs.length call) ∧
      (∀ transition ∈ step.transitions, transition.resumption ≠ "" →
        ∃ before handed call, CallsAfter framework signature body before handed call ∧ transition.Enters call) ∧
      (∀ sub ∈ step.subSteps, sub.isSubroutine = false →
        ∃ inner literal, stmtsAll isNamed literal = true ∧ (trace framework inner literal).toStep wording = .ok sub) := by
  refine ⟨?_, ?_, ?_, ?_⟩
  · rw [walk_exits, ← map_exitsAt, ← Tracing.map_located_hand ⟨framework, signature, _⟩ 0 (exitsAt signature none _ body)]
    rw [List.map_map]
    rfl
  · exact fun before handed call calls => ⟨calls.inner kind traced, calls.transition named kind traced⟩
  · exact fun transition member resumes => transition_enters_of_resumption named kind traced member resumes
  · intro sub member unflagged
    obtain ⟨outline, isOutline, worded⟩ := exists_of_mem_forall₂ (toStep_worded traced).inner member
    rcases trace_subSteps framework signature named outline isOutline with flagged | ⟨inner, literal, every, rfl⟩
    · rw [← (toStep_worded worded).flag, unflagged] at flagged
      cases flagged
    · exact ⟨inner, literal, every, worded⟩

end Steps

/-- A step `run` of a machine. -/
def runSignature : Signature :=
  { receiverType := "Runner", receiverName := some "s", name := "run", kind := .execution, contextArg := "ctx"
    updateIndex := 1 }

/-- The step sets a function literal as its default handler and calls a subroutine, after which another literal runs. -/
def runBody : List Stmt :=
  let literal : Expr := .func default [] [] []
  [.expr (Sample.onContext "SetDefaultMigration" [literal]),
    .ret [Sample.onContext "CallSubroutine" [Sample.newMachine "Sub", Sample.ident "nil", literal]]]

/-- The subroutine stands between the two literals, runs under the first and goes on with the second. -/
theorem subroutines_wired_run : ∃ step,
    (trace "smachine" runSignature runBody).toStep ⟨fun _ => .ok "", 30⟩ = .ok step ∧
      step.Wires 0 3 ⟨1, "run.Sub\x7b\x7d.2", "run.1", "run.3"⟩ := by
  refine ⟨_, rfl, ?_⟩
  obtain ⟨-, wired, -⟩ := @subroutines_wired ⟨fun _ => .ok "", 30⟩ "smachine" runSignature runBody _ (by decide +kernel)
    (by decide) rfl
  have calls := @CallsAfter.intro "smachine" runSignature runBody [] _ [] _ _ _ _ rfl rfl rfl rfl
  exact wired [] _ _ calls

end StepChart
