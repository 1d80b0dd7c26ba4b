import StepChart.Analysis
import StepChart.Proofs.Guard.Labels
import StepChart.Proofs.Trace.Depth

/-!
# Guards are written in the body

The alternatives of the guard of a move are conditions of the body that is traced, in its inner steps too. So a
test that holds everywhere in a body holds in the guards at all depths of its outline (`trace_guarded`), and how
these are worded is all that the step depends on (`toSteps_wording`).
-/

namespace StepChart

open Syntax Guard

variable {test : Expr → Bool}

/-! ## Guards of places -/

/-- The test holds in the alternatives of a guard, if there is one. -/
def GuardHolds (test : Expr → Bool) (guard : Option Guard) : Prop :=
  ∀ found ∈ guard, exprsAll test found.alternatives = true

theorem GuardHolds.none : GuardHolds test none := nofun

theorem GuardHolds.some {guard : Guard} (every : exprsAll test guard.alternatives = true) :
    GuardHolds test (some guard) := by
  intro found isFound
  cases isFound
  exact every

theorem GuardHolds.inside {before : List Stmt} {guard : Option Guard} {site : Site} (outer : GuardHolds test guard)
    (inner : GuardHolds test site.guard?) : GuardHolds test (Site.inside before guard site).guard? := by
  intro found isFound
  rcases Option.or_eq_some_iff.mp isFound with isInner | ⟨-, isOuter⟩
  · exact inner found isInner
  · exact outer found isOuter

theorem GuardHolds.after {first : Stmt} {site : Site} (holds : GuardHolds test site.guard?) :
    GuardHolds test (site.after first).guard? := by
  cases site <;> exact holds

theorem guardHolds_map_inside {guard : Option Guard} {sites : List Site} (outer : GuardHolds test guard)
    (hold : ∀ site ∈ sites, GuardHolds test site.guard?) :
    ∀ site ∈ sites.map (Site.inside [] guard), GuardHolds test site.guard? := by
  intro site isSite
  obtain ⟨inner, isInner, rfl⟩ := List.mem_map.mp isSite
  exact outer.inside (hold inner isInner)

theorem guardHolds_map_after {first : Stmt} {sites : List Site} (hold : ∀ site ∈ sites, GuardHolds test site.guard?) :
    ∀ site ∈ sites.map (Site.after first), GuardHolds test site.guard? := by
  intro site isSite
  obtain ⟨inner, isInner, rfl⟩ := List.mem_map.mp isSite
  exact (hold inner isInner).after

theorem guardHolds_append {first second : List Site} (holdFirst : ∀ site ∈ first, GuardHolds test site.guard?)
    (holdSecond : ∀ site ∈ second, GuardHolds test site.guard?) :
    ∀ site ∈ first ++ second, GuardHolds test site.guard? := by
  intro site isSite
  exact (List.mem_append.mp isSite).elim (holdFirst site) (holdSecond site)

mutual

theorem guards_returns : (stmt : Stmt) → stmt.all test = true → ∀ site ∈ stmt.returns, GuardHolds test site.guard?
  | .labeled _ inner, every => guards_returns inner every
  | .ret results, _ => by
    intro site isSite
    rw [Stmt.returns, List.mem_singleton] at isSite
    rw [isSite]
    exact .none
  | .block body, every | .switch body, every | .typeSwitch body, every | .select body, every | .forLoop body, every
  | .range body, every => by
    rw [Stmt.returns]
    exact guardHolds_map_inside .none (guards_returnsIn body every)
  | .commClause none body, every => by
    rw [Stmt.returns]
    exact guardHolds_map_inside .none (guards_returnsIn body (Bool.and_eq_true_iff.mp every).2)
  | .commClause (some comm) body, every => by
    obtain ⟨inComm, inBody⟩ := Bool.and_eq_true_iff.mp every
    rw [Stmt.returns]
    exact guardHolds_map_inside .none
      (guardHolds_append (guards_returns comm inComm) (guardHolds_map_after (guards_returnsIn body inBody)))
  | .ifElse cond body none, every => by
    obtain ⟨inCond, inBody⟩ := Bool.and_eq_true_iff.mp (Bool.and_eq_true_iff.mp every).1
    rw [Stmt.returns]
    exact guardHolds_map_inside (.some (Bool.and_eq_true_iff.mpr ⟨inCond, rfl⟩)) (guards_returnsIn body inBody)
  | .ifElse cond body (some alternative), every => by
    obtain ⟨rest, inAlternative⟩ := Bool.and_eq_true_iff.mp every
    obtain ⟨inCond, inBody⟩ := Bool.and_eq_true_iff.mp rest
    have guard : exprsAll test [cond] = true := Bool.and_eq_true_iff.mpr ⟨inCond, rfl⟩
    rw [Stmt.returns]
    exact guardHolds_append (guardHolds_map_inside (.some guard) (guards_returnsIn body inBody))
      (guardHolds_map_inside (.some guard) (guards_returns alternative inAlternative))
  | .caseClause alternatives body, every => by
    obtain ⟨inAlternatives, inBody⟩ := Bool.and_eq_true_iff.mp every
    rw [Stmt.returns]
    refine guardHolds_map_inside ?_ (guards_returnsIn body inBody)
    split
    · exact .none
    · exact .some inAlternatives
  | .constDecl _, _ | .varDecl _, _ | .typeDecl _, _ | .expr _, _ | .assign _ _, _ | .branch _, _ | .defer _, _
  | .go _, _ | .send _ _, _ | .incDec _, _ | .empty, _ => by
    rw [Stmt.returns]
    all_goals nofun

theorem guards_returnsIn : (body : List Stmt) → stmtsAll test body = true →
    ∀ site ∈ returnsIn body, GuardHolds test site.guard?
  | [], _ => by
    rw [returnsIn]
    nofun
  | first :: rest, every => by
    obtain ⟨inFirst, inRest⟩ := Bool.and_eq_true_iff.mp every
    rw [returnsIn]
    exact guardHolds_append (guards_returns first inFirst) (guardHolds_map_after (guards_returnsIn rest inRest))

end

/-- **The guards of exits are written in the body.** -/
theorem guards_walk (signature : Signature) {body : List Stmt} (every : stmtsAll test body = true) :
    ∀ exit ∈ (walk signature body).exits, GuardHolds test exit.guard := by
  rw [walk_exits]
  intro exit isExit
  obtain ⟨site, isSite, found⟩ := List.mem_filterMap.mp isExit
  have holds := guards_returnsIn body every site isSite
  unfold Site.exitFrom at found
  dsimp only at found
  split at found
  · obtain ⟨update, -, rfl⟩ := Option.map_eq_some_iff.mp found
    rw [Option.or_none]
    exact holds
  · cases found

/-! ## Guards of outlines -/

/-- The test holds in the guards of an outline at all depths. -/
inductive Outline.Guarded (test : Expr → Bool) : Outline → Prop
  | intro {outline : Outline} (moves : ∀ move ∈ outline.moves, GuardHolds test move.guard)
      (inside : ∀ sub ∈ outline.subSteps, sub.Guarded test) : Guarded test outline

/-- Outlines in whose guards the test holds. -/
def AllGuarded (test : Expr → Bool) (outlines : List Outline) : Prop := ∀ outline ∈ outlines, outline.Guarded test

/-- A step without inner steps whose moves have no guards. -/
theorem Outline.Guarded.plain {outline : Outline} (moves : ∀ move ∈ outline.moves, move.guard = none)
    (noSubs : outline.subSteps = []) : outline.Guarded test := by
  refine .intro (fun move isMove => ?_) fun sub isSub => ?_
  · rw [moves move isMove]
    exact .none
  · rw [noSubs] at isSub
    cases isSub

theorem Outline.ForMachine.guarded {outline : Outline} (machine : outline.ForMachine) : outline.Guarded test := by
  cases machine with
  | built => exact .plain nofun rfl
  | entered =>
    refine .plain (fun move isMove => ?_) rfl
    rw [List.mem_singleton.mp isMove]

/-- The moves of a step have the guards of its exits. -/
theorem guards_trace (framework : String) (signature : Signature) {body : List Stmt}
    (every : stmtsAll test body = true) :
    ∀ move ∈ (trace framework signature body).moves, GuardHolds test move.guard := by
  intro move isMove
  rw [(trace_eq_trail framework signature body).1] at isMove
  obtain ⟨handed, isHanded, inHanded⟩ := List.mem_flatMap.mp isMove
  obtain ⟨transition, -, rfl⟩ := List.mem_map.mp inHanded
  have isExit : handed.exit ∈ (walk signature body).exits := by
    rw [walk_exits, ← map_exitsAt]
    exact List.mem_map.mpr ⟨handed.located, located_mem_exitsAt isHanded, rfl⟩
  exact guards_walk signature every handed.exit isExit

/-- **The guards of a step are written in its body**, at all depths. -/
theorem trace_guarded (framework : String) (signature : Signature) {body : List Stmt}
    (every : stmtsAll test body = true) : (trace framework signature body).Guarded test := by
  -- a function literal in the body is smaller than the body
  induction size : stmtsSize body using Nat.strongRecOn generalizing signature body with
  | ind size ih =>
    refine .intro (guards_trace framework signature every) fun sub isSub => ?_
    rcases (trace_inner framework signature body sub isSub).cases every with
      machine | ⟨inner, literal, inside, smaller, rfl⟩
    · exact machine.guarded
    · exact ih (stmtsSize literal) (size ▸ smaller) inner inside rfl

/-- The guards of the steps of a file are written in their bodies. -/
theorem outlines_guarded {package : String} {file : SourceFile}
    (every : ∀ decl ∈ file.decls, stmtsAll test (decl.body.getD []) = true) :
    AllGuarded test (outlines package file) := by
  unfold outlines
  split
  · exact List.forall_mem_nil _
  · next framework _ =>
    intro outline isOutline
    obtain ⟨decl, isDecl, found⟩ := List.mem_filterMap.mp isOutline
    obtain ⟨signature, -, rfl⟩ := Option.map_eq_some_iff.mp found
    have inBody := every decl isDecl
    cases body : decl.body with
    | none => exact .plain nofun rfl
    | some body =>
      rw [body] at inBody
      exact trace_guarded framework signature inBody

/-! ## Wording -/

section Wording

/-- A step quotes the source where its guards do. -/
theorem hasExcerpts_addMoves {wording : Wording} {moves : List Move}
    (worded : ∀ move ∈ moves, ∀ guard ∈ move.guard, HasExcerpts (wording.label guard)) (step : Step) :
    HasExcerpts (wording.addMoves step moves) := by
  induction moves generalizing step with
  | nil => exact .ok step
  | cons move moves ih =>
    have transition : HasExcerpts (wording.transition move) := by
      unfold Wording.transition
      cases isGuard : move.guard with
      | none => exact .ok move.transition
      | some guard => exact (worded move (.head moves) guard isGuard).map _
    unfold Wording.addMoves
    cases isTransition : wording.transition move with
    | error fault =>
      rw [isTransition] at transition
      exact transition.of_error
    | ok transition => exact ih (fun other isOther => worded other (.tail move isOther)) _

theorem addMoves_wording {first second : Wording} (limit : first.limit = second.limit) {moves : List Move}
    (same : ∀ move ∈ moves, ∀ guard ∈ move.guard, first.label guard = second.label guard) (step : Step) :
    first.addMoves step moves = second.addMoves step moves := by
  induction moves generalizing step with
  | nil => rfl
  | cons move moves ih =>
    have transition : first.transition move = second.transition move := by
      unfold Wording.transition
      cases isGuard : move.guard with
      | none => rfl
      | some guard =>
        dsimp only
        rw [same move (.head moves) guard isGuard]
    rw [Wording.addMoves, Wording.addMoves, transition, limit]
    split
    · rfl
    · exact ih (fun other isOther => same other (.tail move isOther)) _

mutual

theorem hasExcerpts_toStep {wording : Wording}
    (worded : ∀ guard, exprsAll test guard.alternatives = true → HasExcerpts (wording.label guard)) :
    (outline : Outline) → outline.Guarded test → HasExcerpts (outline.toStep wording)
  | ⟨signature, moves, subSteps, usages, migrations, isSubroutine⟩, .intro inMoves inside => by
    have quoted := hasExcerpts_toSteps worded subSteps inside
    unfold Outline.toStep
    cases isSteps : Outline.toSteps wording subSteps with
    | error fault =>
      rw [isSteps] at quoted
      exact quoted.of_error
    | ok steps =>
      exact hasExcerpts_addMoves (fun move isMove guard isGuard => worded guard (inMoves move isMove guard isGuard)) _

/-- Outlines become steps without asking for an excerpt that is not there if the guards that can be in them do. -/
theorem hasExcerpts_toSteps {wording : Wording}
    (worded : ∀ guard, exprsAll test guard.alternatives = true → HasExcerpts (wording.label guard)) :
    (outlines : List Outline) → AllGuarded test outlines → HasExcerpts (Outline.toSteps wording outlines)
  | [], _ => .ok []
  | outline :: outlines, guarded => by
    have quoted := hasExcerpts_toStep worded outline (guarded outline (.head outlines))
    unfold Outline.toSteps
    cases isStep : outline.toStep wording with
    | error fault =>
      rw [isStep] at quoted
      exact quoted.of_error
    | ok step =>
      exact (hasExcerpts_toSteps worded outlines fun other isOther => guarded other (.tail outline isOther)).map _

end

mutual

theorem toStep_wording {first second : Wording} (limit : first.limit = second.limit)
    (same : ∀ guard, exprsAll test guard.alternatives = true → first.label guard = second.label guard) :
    (outline : Outline) → outline.Guarded test → outline.toStep first = outline.toStep second
  | ⟨signature, moves, subSteps, usages, migrations, isSubroutine⟩, .intro inMoves inside => by
    rw [Outline.toStep, Outline.toStep, toSteps_wording limit same subSteps inside]
    split
    · rfl
    · exact addMoves_wording limit (fun move isMove guard isGuard => same guard (inMoves move isMove guard isGuard)) _

/-- Outlines become the same steps if the guards that can be in them have the same labels. -/
theorem toSteps_wording {first second : Wording} (limit : first.limit = second.limit)
    (same : ∀ guard, exprsAll test guard.alternatives = true → first.label guard = second.label guard) :
    (outlines : List Outline) → AllGuarded test outlines →
      Outline.toSteps first outlines = Outline.toSteps second outlines
  | [], _ => rfl
  | outline :: outlines, guarded => by
    rw [Outline.toSteps, Outline.toSteps, toStep_wording limit same outline (guarded outline (.head outlines)),
      toSteps_wording limit same outlines fun other isOther => guarded other (.tail outline isOther)]

end

end Wording

end StepChart
