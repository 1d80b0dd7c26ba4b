import StepChart.Proofs.Handlers.Gift
import StepChart.Proofs.Step.Folding
import StepChart.Proofs.Trace.Tracers

/-!
# The same step under another name

The name of a step shows in the names of its inner steps, which begin with it, and in the transitions that lead to them;
it shows nowhere else. `Step.Renamed` says so of two steps, and `trace_renamed` that one body gives such steps under two
names.
-/

namespace StepChart

open Syntax Text

/-! ## Names -/

/-- The names are the same, or names of the same step inside two steps. -/
inductive Renamed (old new : String) : String → String → Prop
  | same (name : String) : Renamed old new name name
  | inside (rest : String) : Renamed old new (old ++ "." ++ rest) (new ++ "." ++ rest)

variable {old new : String}

theorem Renamed.isEmpty {name other : String} (renamed : Renamed old new name other) : name.isEmpty = other.isEmpty := by
  cases renamed with
  | same => rfl
  | inside rest =>
    have nonempty : ∀ outer : String, (outer ++ "." ++ rest).isEmpty = false := fun outer => by simp
    rw [nonempty, nonempty]

/-- Every name in one of the sets is in the other one, renamed. -/
structure Text.NameSet.Renamed (old new : String) (names others : NameSet) : Prop where
  left : ∀ name ∈ names, ∃ other ∈ others, StepChart.Renamed old new name other
  right : ∀ other ∈ others, ∃ name ∈ names, StepChart.Renamed old new name other

theorem Text.NameSet.mem_ofList_singleton {name other : String} : other ∈ NameSet.ofList [name] ↔ other = name := by
  rw [NameSet.ofList, List.foldl_cons, List.foldl_nil, NameSet.mem_insert]
  exact or_iff_left List.not_mem_nil

theorem Text.NameSet.Renamed.single {name other : String} (renamed : StepChart.Renamed old new name other) :
    (NameSet.ofList [name]).Renamed old new (.ofList [other]) := by
  constructor
  · rintro member inNames
    rw [mem_ofList_singleton.1 inNames]
    exact ⟨other, mem_ofList_singleton.2 rfl, renamed⟩
  · rintro member inOthers
    rw [mem_ofList_singleton.1 inOthers]
    exact ⟨name, mem_ofList_singleton.2 rfl, renamed⟩

theorem Text.NameSet.Renamed.refl (names : NameSet) : names.Renamed old new names :=
  ⟨fun name member => ⟨name, member, .same name⟩, fun name member => ⟨name, member, .same name⟩⟩

/-! ## Steps -/

/-- The steps are the same but for their names and what is renamed with them. -/
inductive Step.Renamed (old new : String) : Step → Step → Prop
  | intro {first second : Step} (signature : second.signature = { first.signature with name := second.signature.name })
      (transitions : List.Forall₂ (Transition.Like (StepChart.Renamed old new)) first.transitions second.transitions)
      (place : first.repeatIndex? = second.repeatIndex?)
      (names : List.Forall₂ (StepChart.Renamed old new) (first.subSteps.map Step.name) (second.subSteps.map Step.name))
      (subSteps : List.Forall₂ (Renamed old new) first.subSteps second.subSteps) (usages : first.usages = second.usages)
      (migrations : first.migrations.Renamed old new second.migrations) (number : first.number = second.number)
      (duplicate : first.duplicate = second.duplicate) (flag : first.isSubroutine = second.isSubroutine) :
      Renamed old new first second

theorem Transition.Like.isRepeat {transition other : Transition} (like : transition.Like (Renamed old new) other) :
    transition.isRepeat = other.isRepeat := like.destination.isEmpty

theorem Transition.Like.fold {transition other more otherMore : Transition} (like : transition.Like (Renamed old new) other)
    (likeMore : more.Like (Renamed old new) otherMore) (limit : Nat) :
    (transition.fold limit more).Like (Renamed old new) (other.fold limit otherMore) := by
  refine { like with condition := ?_, operation := ?_ }
  · simp only [Transition.fold, like.condition, likeMore.condition]
  · simp only [Transition.fold, like.operation, likeMore.operation]

namespace Step.Renamed

variable {first second : Step}

theorem addMigration (sets : first.migrations.Renamed old new second.migrations) {migration other : String}
    (renamed : StepChart.Renamed old new migration other) :
    (first.addMigration migration).migrations.Renamed old new (second.addMigration other).migrations := by
  have empty : migration = "" ↔ other = "" := by
    rw [← String.isEmpty_iff, ← String.isEmpty_iff, renamed.isEmpty]
  constructor
  · intro handler member
    rcases mem_addMigration.1 member with before | ⟨rfl, named⟩
    · obtain ⟨twin, inSecond, same⟩ := sets.left handler before
      exact ⟨twin, mem_addMigration.2 (.inl inSecond), same⟩
    · exact ⟨other, mem_addMigration.2 (.inr ⟨rfl, fun none => named (empty.2 none)⟩), renamed⟩
  · intro handler member
    rcases mem_addMigration.1 member with before | ⟨rfl, named⟩
    · obtain ⟨twin, inFirst, same⟩ := sets.right handler before
      exact ⟨twin, mem_addMigration.2 (.inl inFirst), same⟩
    · exact ⟨migration, mem_addMigration.2 (.inr ⟨rfl, fun none => named (empty.1 none)⟩), renamed⟩

/-- Adding one transition to both. -/
theorem addTransition (renamed : first.Renamed old new second) (limit : Nat) {transition other : Transition}
    (like : transition.Like (StepChart.Renamed old new) other) :
    (first.addTransition limit transition).Renamed old new (second.addTransition limit other) := by
  obtain ⟨signature, transitions, place, names, subSteps, usages, migrations, number, duplicate, flag⟩ := renamed
  rw [addTransition_eq first, addTransition_eq second]
  refine .intro signature ?_ ?_ names subSteps usages ?_ number duplicate flag
  · dsimp only
    rw [transitions_addTransition, transitions_addTransition, place, like.isRepeat]
    have appended : List.Forall₂ (Transition.Like (StepChart.Renamed old new)) (first.transitions ++ [transition])
        (second.transitions ++ [other]) := List.rel_append transitions (.cons like .nil)
    cases second.repeatIndex? with
    | none => exact appended
    | some index =>
      cases other.isRepeat with
      | false => exact appended
      | true => exact forall₂_modify (fun _ _ same => same.fold like limit) transitions index
  · dsimp only
    rw [repeatIndex?_addTransition, repeatIndex?_addTransition, like.isRepeat, place, transitions.length_eq]
  · dsimp only
    rw [migrations_addTransition, migrations_addTransition, like.isRepeat]
    split
    · exact addMigration migrations like.migration
    · exact migrations

end Step.Renamed

/-! ## Outlines -/

section Wording

variable {wording : Wording}

theorem Move.Like.worded {move other : Move} (like : move.Like (Renamed old new) other) {transition : Transition}
    (worded : wording.transition move = .ok transition) :
    ∃ second, wording.transition other = .ok second ∧ transition.Like (Renamed old new) second := by
  obtain ⟨guard, moved⟩ := move
  obtain ⟨otherGuard, otherMoved⟩ := other
  obtain ⟨rfl : guard = otherGuard, likeTransition⟩ := like
  cases guard with
  | none =>
    cases worded
    exact ⟨otherMoved, rfl, likeTransition⟩
  | some guard =>
    simp only [Wording.transition] at worded ⊢
    cases label : wording.label guard with
    | error fault =>
      rw [label] at worded
      cases worded
    | ok condition =>
      rw [label] at worded
      cases worded
      exact ⟨_, rfl, { likeTransition with condition := rfl }⟩

theorem addMoves_renamed {moves others : List Move} (like : List.Forall₂ (Move.Like (Renamed old new)) moves others)
    {first second result : Step} (renamed : first.Renamed old new second)
    (worded : wording.addMoves first moves = .ok result) :
    ∃ other, wording.addMoves second others = .ok other ∧ result.Renamed old new other := by
  induction like generalizing first second with
  | nil =>
    cases worded
    exact ⟨second, rfl, renamed⟩
  | cons likeMove _ ih =>
    unfold Wording.addMoves at worded
    split at worded
    · cases worded
    · next transition inWords =>
      obtain ⟨other, otherInWords, likeTransition⟩ := likeMove.worded inWords
      rw [Wording.addMoves, otherInWords]
      exact ih (renamed.addTransition wording.limit likeTransition) worded

end Wording

/-- Where one outline becomes a step, the other one becomes the same step, renamed. -/
def Outline.Renamed (wording : Wording) (old new : String) (first second : Outline) : Prop :=
  ∀ step, first.toStep wording = .ok step → ∃ other, second.toStep wording = .ok other ∧ step.Renamed old new other

/-- Outlines of inner steps, whose own names are renamed too. -/
def Outline.RenamedInside (wording : Wording) (old new : String) (first second : Outline) : Prop :=
  StepChart.Renamed old new first.signature.name second.signature.name ∧ first.Renamed wording old new second

section Wording

variable {wording : Wording}

theorem toSteps_renamed {first second : List Outline}
    (renamed : List.Forall₂ (Outline.RenamedInside wording old new) first second) {steps : List Step}
    (worded : Outline.toSteps wording first = .ok steps) :
    ∃ others, Outline.toSteps wording second = .ok others ∧
      List.Forall₂ (Renamed old new) (steps.map Step.name) (others.map Step.name) ∧
      List.Forall₂ (Step.Renamed old new) steps others := by
  induction renamed generalizing steps with
  | nil =>
    cases worded
    exact ⟨[], rfl, .nil, .nil⟩
  | @cons outline other outlines rest here _ ih =>
    unfold Outline.toSteps at worded
    split at worded
    · cases worded
    · next step inWords =>
      cases later : Outline.toSteps wording outlines with
      | error fault =>
        rw [later] at worded
        cases worded
      | ok laterSteps =>
        rw [later] at worded
        cases worded
        obtain ⟨twin, twinInWords, renamedTwin⟩ := here.2 step inWords
        obtain ⟨others, othersInWords, names, renamedOthers⟩ := ih later
        have name : Renamed old new step.name twin.name := by
          rw [Step.name, Step.name, (toStep_worded inWords).signature, (toStep_worded twinInWords).signature]
          exact here.1
        refine ⟨twin :: others, ?_, .cons name names, .cons renamedTwin renamedOthers⟩
        rw [Outline.toSteps, twinInWords, othersInWords]
        rfl

theorem Outline.renamed_of {first second : Outline}
    (signature : second.signature = { first.signature with name := second.signature.name })
    (moves : List.Forall₂ (Move.Like (StepChart.Renamed old new)) first.moves second.moves)
    (subSteps : List.Forall₂ (Outline.RenamedInside wording old new) first.subSteps second.subSteps)
    (usages : first.usages = second.usages) (migrations : first.migrations.Renamed old new second.migrations)
    (flag : first.isSubroutine = second.isSubroutine) : first.Renamed wording old new second := by
  intro step worded
  obtain ⟨signatureFirst, movesFirst, inner, usagesFirst, migrationsFirst, flagFirst⟩ := first
  obtain ⟨signatureSecond, movesSecond, otherInner, usagesSecond, migrationsSecond, flagSecond⟩ := second
  unfold toStep at worded ⊢
  split at worded
  · cases worded
  · next steps inWords =>
    obtain ⟨others, otherInWords, names, renamed⟩ := toSteps_renamed subSteps inWords
    rw [otherInWords]
    refine addMoves_renamed moves ?_ worded
    exact .intro signature .nil rfl names renamed usages migrations rfl rfl flag

end Wording

/-! ## Bodies -/

section Walks

variable {first second : Signature}

mutual

/-- Following a statement, nothing of the signature counts but what is returned. -/
theorem stmt_signature (same : ∀ scope results, Walk.returned scope first results = Walk.returned scope second results) :
    (stmt : Stmt) → (walk : Walk) → Walk.stmt first stmt walk = Walk.stmt second stmt walk
  | .labeled _ inner, walk => stmt_signature same inner walk
  | .ret results, walk => congrArg (fun update => (Flow.out update, walk)) (same walk.scope results)
  | .block body, walk | .switch body, walk | .typeSwitch body, walk | .select body, walk | .forLoop body, walk
  | .range body, walk => by
    simp only [Walk.stmt, stmts_signature same body]
  | .ifElse cond body alternative, walk => by
    simp only [Walk.stmt, stmts_signature same body, stmt?_signature same alternative]
  | .caseClause alternatives body, walk => by
    simp only [Walk.stmt, stmts_signature same body]
  | .commClause comm body, walk => by
    simp only [Walk.stmt, stmts_signature same body, stmt?_signature same comm]
  | .expr value, walk => by cases value <;> rfl
  | .constDecl _, _ | .varDecl _, _ | .typeDecl _, _ | .assign _ _, _ | .branch _, _ | .defer _, _ | .go _, _
  | .send _ _, _ | .incDec _, _ | .empty, _ => rfl

theorem stmt?_signature (same : ∀ scope results, Walk.returned scope first results = Walk.returned scope second results) :
    (stmt : Option Stmt) → (walk : Walk) → Walk.stmt? first stmt walk = Walk.stmt? second stmt walk
  | none, _ => rfl
  | some inner, walk => stmt_signature same inner walk

theorem stmts_signature (same : ∀ scope results, Walk.returned scope first results = Walk.returned scope second results) :
    (list : List Stmt) → (walk : Walk) → Walk.stmts first list walk = Walk.stmts second list walk
  | [], _ => rfl
  | stmt :: rest, walk => by
    simp only [Walk.stmts, stmt_signature same stmt, stmts_signature same rest]

end

/-- A body is followed in the same way whatever the name of its step. -/
theorem walk_signature (same : second = { first with name := second.name }) (body : List Stmt) :
    walk first body = walk second body := by
  have returned : ∀ scope results, Walk.returned scope first results = Walk.returned scope second results := by
    intro scope results
    rw [same]
    rfl
  have context : first.contextArg = second.contextArg := by rw [same]
  have runs : Walk.stmts first body = Walk.stmts second body := funext (stmts_signature returned body)
  rw [walk, walk, runs, context]

end Walks

/-! ## Traces -/

section Traces

variable {wording : Wording} {first second : Signature}

theorem inner_renamed (same : second = { first with name := second.name }) (framework name other : String)
    (params : List Field) (kind : Kind) :
    second.inner framework other params kind = { first.inner framework name params kind with name := other } := by
  rw [same]
  rfl

theorem signature_outline (framework : String) (depth : Nat) (signature : Signature) (body : List Stmt) :
    (outline framework depth signature body).signature = signature := by
  cases depth <;> rfl

/-- **One body gives the same step under two names**, if the names of the steps inside them are renamed. -/
theorem outline_renamed (framework : String) (depth : Nat) (same : second = { first with name := second.name })
    (inside : ∀ rest, Renamed old new (first.name ++ "." ++ rest) (second.name ++ "." ++ rest)) (body : List Stmt) :
    (outline framework depth first body).Renamed wording old new (outline framework depth second body) := by
  induction depth generalizing first second body with
  | zero => exact Outline.renamed_of same .nil .nil rfl (.refl _) rfl
  | succ depth ih =>
    have parallel : Tracing.Parallel (Renamed old new) (Outline.RenamedInside wording old new) (fun _ => true)
        ⟨framework, first, outline framework depth⟩ ⟨framework, second, outline framework depth⟩ := by
      refine ⟨.same, Renamed.isEmpty, ?_, inside, ?_, ?_, ?_⟩
      · exact (congrArg Signature.kind same).symm
      · intro name
        have sameInner := inner_renamed same framework name name [] .plain
        exact ⟨.same name, Outline.renamed_of sameInner .nil .nil rfl (.refl _) rfl⟩
      · intro rest resumption other migration otherMigration resumes handles
        refine ⟨inside rest, Outline.renamed_of (inner_renamed same framework _ _ [] .plain) ?_ .nil rfl ?_ rfl⟩
        · exact .cons ⟨rfl, ⟨resumes, .same _, .same _, rfl, rfl, rfl, rfl⟩⟩ .nil
        · rw [handles.isEmpty]
          split
          · exact .refl _
          · exact .single handles
      · intro span params results literal _ rest kind
        refine ⟨?_, ih (inner_renamed same framework _ _ params kind) (fun more => ?_) literal⟩
        · rw [signature_outline, signature_outline]
          exact inside rest
        · have further := inside (rest ++ "." ++ more)
          simp only [← String.append_assoc] at further
          exact further
    have holds : ∀ exit ∈ (walk first body).exits, exit.Holds fun _ => true :=
      fun exit _ => exit.holds_of_forall fun _ => rfl
    obtain ⟨moves, subSteps⟩ := Tracing.moves_parallel parallel holds
    rw [outline, outlineWith, outlineWith, ← walk_signature same body]
    exact Outline.renamed_of same moves subSteps rfl (.refl _) rfl

/-- The trace of a body under another name is the same step, renamed. -/
theorem trace_renamed (framework : String) (same : second = { first with name := second.name }) (body : List Stmt) :
    (trace framework first body).Renamed wording first.name second.name (trace framework second body) :=
  outline_renamed framework _ same .inside body

end Traces

end StepChart
