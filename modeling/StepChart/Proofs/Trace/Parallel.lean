import Mathlib.Data.List.Forall2
import StepChart.Proofs.Naming.Outlines

/-!
# Two tracings side by side

Two tracings of the same exits go the same way: with names that are related, and with function literals that are traced
into related inner steps (`Tracing.Parallel`), they find as many transitions, which differ in related names only, and as
many inner steps, which are related (`transitionsOf_parallel`, `moves_parallel`).
-/

namespace StepChart

open Syntax Text

/-- The transitions differ in names only, and those are alike. -/
structure Transition.Like (alike : String → String → Prop) (first second : Transition) : Prop where
  destination : alike first.destination second.destination
  migration : alike first.migration second.migration
  resumption : alike first.resumption second.resumption
  condition : first.condition = second.condition
  operation : first.operation = second.operation
  inherits : first.inherits = second.inherits
  targets : first.targets = second.targets

/-- The moves are taken under the same guard, and their transitions differ in names only. -/
structure Move.Like (alike : String → String → Prop) (first second : Move) : Prop where
  guard : first.guard = second.guard
  transition : first.transition.Like alike second.transition

/-- Two tracings that give alike names to inner steps, and trace the function literals for which the test holds,
everywhere inside, into related outlines. -/
structure Tracing.Parallel (alike : String → String → Prop) (same : Outline → Outline → Prop) (test : Expr → Bool)
    (first second : Tracing) : Prop where
  refl : ∀ name, alike name name
  isEmpty : ∀ {name other}, alike name other → name.isEmpty = other.isEmpty
  kind : first.signature.kind = second.signature.kind
  within : ∀ rest, alike (first.signature.name ++ "." ++ rest) (second.signature.name ++ "." ++ rest)
  built : ∀ name, same { signature := first.signature.inner first.framework name [] .plain, isSubroutine := true }
    { signature := second.signature.inner second.framework name [] .plain, isSubroutine := true }
  entered : ∀ rest {resumption other migration otherMigration}, alike resumption other → alike migration otherMigration →
    same
      { signature := first.signature.inner first.framework (first.signature.name ++ "." ++ rest) [] .plain
        moves := [{ transition := { destination := resumption } }]
        migrations := if migration.isEmpty then .empty else .ofList [migration]
        isSubroutine := true }
      { signature := second.signature.inner second.framework (second.signature.name ++ "." ++ rest) [] .plain
        moves := [{ transition := { destination := other } }]
        migrations := if otherMigration.isEmpty then .empty else .ofList [otherMigration]
        isSubroutine := true }
  literal : ∀ {span : Span} {params results : List Field} {body : List Stmt},
    (Expr.func span params results body).all test = true → ∀ rest kind,
      same (first.tracer (first.signature.inner first.framework (first.signature.name ++ "." ++ rest) params kind) body)
        (second.tracer (second.signature.inner second.framework (second.signature.name ++ "." ++ rest) params kind) body)

namespace Tracing

/-- Alike names, and related inner steps. -/
def MetLike (alike : String → String → Prop) (same : Outline → Outline → Prop) (met other : String × List Outline) : Prop :=
  alike met.1 other.1 ∧ List.Forall₂ same met.2 other.2

/-- Transitions that differ in alike names, and related inner steps. -/
structure Found.Like (alike : String → String → Prop) (same : Outline → Outline → Prop) (found other : Found) : Prop where
  transitions : List.Forall₂ (Transition.Like alike) found.transitions other.transitions
  subs : List.Forall₂ same found.subs other.subs

/-- What was found after other inner steps. -/
theorem Found.Like.after {alike : String → String → Prop} {same : Outline → Outline → Prop} {subs others : List Outline}
    (before : List.Forall₂ same subs others) {found other : Found} (like : found.Like alike same other) :
    Found.Like alike same { found with subs := subs ++ found.subs } { other with subs := others ++ other.subs } :=
  ⟨like.transitions, List.rel_append before like.subs⟩

/-- Descriptors that name alike steps, with related inner steps. -/
structure Description.Like (alike : String → String → Prop) (same : Outline → Outline → Prop) (said other : Description) :
    Prop where
  destination : alike said.destination other.destination
  migration : alike said.migration other.migration
  subs : List.Forall₂ same said.subs other.subs

variable {alike : String → String → Prop} {same : Outline → Outline → Prop} {test : Expr → Bool} {first second : Tracing}

section Parallel

variable (parallel : Parallel alike same test first second)

include parallel

/-! ## References to steps -/

theorem refer_parallel (kind : Kind) (count : Nat) {expr : Expr} (every : expr.all test = true) :
    MetLike alike same (first.refer kind count expr) (second.refer kind count expr) := by
  fun_induction Tracing.refer first kind count expr with
  | case1 span operand updates =>
    rw [refer, if_pos updates]
    exact ⟨parallel.refl _, .nil⟩
  | case2 span operand noUpdate ih =>
    rw [refer, if_neg noUpdate]
    exact ih (Expr.all_unary every)
  | case3 span type elements isPlain name signature =>
    rw [refer, if_pos isPlain]
    refine ⟨parallel.refl _, .cons ?_ .nil⟩
    rw [show signature = first.signature.inner first.framework name [] .plain by rw [← isPlain], isPlain]
    exact parallel.built name
  | case4 span type elements notPlain =>
    rw [refer, if_neg notPlain]
    exact ⟨parallel.refl _, .nil⟩
  | case5 span params results body =>
    rw [refer]
    exact ⟨parallel.within _, .cons (parallel.literal every _ kind) .nil⟩
  | case6 expr noAddress noComposite noFunc =>
    rw [refer]
    · exact ⟨parallel.refl _, .nil⟩
    · exact noAddress
    · exact noComposite
    · exact noFunc

theorem describeEntry_parallel (count : Nat) {said other : Description} (before : said.Like alike same other) {expr : Expr}
    (every : expr.all test = true) :
    (first.describeEntry count said expr).Like alike same (second.describeEntry count other expr) := by
  have length := before.subs.length_eq
  cases expr with
  | keyValue span key value =>
    have target := refer_parallel parallel .execution (count + other.subs.length) (Expr.all_keyValue every).2
    have handler := refer_parallel parallel .migration (count + other.subs.length) (Expr.all_keyValue every).2
    simp only [describeEntry, length]
    split
    · exact ⟨target.1, before.migration, List.rel_append before.subs target.2⟩
    · split
      · exact ⟨before.destination, handler.1, List.rel_append before.subs handler.2⟩
      · exact before
  | _ => exact before

theorem describeEntries_parallel (count : Nat) {entries : List Expr} (every : exprsAll test entries = true)
    {said other : Description} (before : said.Like alike same other) :
    (entries.foldl (first.describeEntry count) said).Like alike same
      (entries.foldl (second.describeEntry count) other) := by
  induction entries generalizing said other with
  | nil => exact before
  | cons entry entries ih =>
    obtain ⟨inEntry, inEntries⟩ := Bool.and_eq_true_iff.1 every
    exact ih inEntries (describeEntry_parallel parallel count before inEntry)

theorem describe_parallel (count : Nat) {expr : Expr} (every : expr.all test = true) :
    (first.describe count expr).Like alike same (second.describe count expr) := by
  have leaf : ∀ destination : String, Description.Like alike same { destination } { destination } :=
    fun destination => ⟨parallel.refl destination, parallel.refl "", .nil⟩
  unfold describe
  split
  · split
    · exact describeEntries_parallel parallel count (Expr.all_composite every).2 (leaf "")
    · exact leaf _
  · exact leaf _

/-! ## Exits -/

section Transition

variable {transition other : Transition} (before : transition.Like alike other)

include before

theorem arrive_parallel {destination otherDestination : String} (named : alike destination otherDestination) :
    (arrive transition destination).Like alike (arrive other otherDestination) := by
  unfold arrive
  rw [parallel.isEmpty named]
  refine { before with destination := ?_ }
  dsimp only
  split
  · exact parallel.refl _
  · exact named

theorem handledBy_parallel {migration otherMigration : String} (named : alike migration otherMigration) :
    (handledBy transition migration).Like alike (handledBy other otherMigration) := by
  unfold handledBy
  rw [parallel.isEmpty named]
  split
  · exact before
  · exact { before with migration := named, inherits := rfl }

theorem subroutine_parallel (count : Nat) (machine : Expr) {migrate exit : Expr} (inMigrate : migrate.all test = true)
    (inExit : exit.all test = true) :
    (first.subroutine count transition machine migrate exit).Like alike same
      (second.subroutine count other machine migrate exit) := by
  have handler := refer_parallel parallel .migration count inMigrate
  have after := refer_parallel parallel .execution (count + (second.refer .migration count migrate).2.length + 1) inExit
  have length := handler.2.length_eq
  have handled := handledBy_parallel parallel before handler.1
  have named : ∀ (name : String) (number : Nat), name ++ "." ++ machineName machine ++ "." ++ toString number =
      name ++ "." ++ (machineName machine ++ "." ++ toString number) :=
    fun name number => by simp only [String.append_assoc]
  unfold subroutine
  simp only [length, named]
  refine ⟨.cons ?_ .nil, List.rel_append handler.2 (.cons (parallel.entered _ after.1 handled.migration) after.2)⟩
  exact { handled with
    destination := parallel.within _, migration := parallel.refl _, resumption := after.1, operation := rfl }

theorem jumpTo_parallel (count : Nat) (kind : Kind) {args : List Expr} (inArgs : ∀ arg ∈ args, arg.all test = true) :
    (first.jumpTo count transition kind args).Like alike same (second.jumpTo count other kind args) := by
  cases args with
  | nil => exact ⟨.cons (arrive_parallel parallel before (parallel.refl _)) .nil, .nil⟩
  | cons target args =>
    have met := refer_parallel parallel kind count (inArgs target List.mem_cons_self)
    exact ⟨.cons (arrive_parallel parallel before met.1) .nil, met.2⟩

theorem jumpAsDescribed_parallel (count : Nat) {args : List Expr} (inArgs : ∀ arg ∈ args, arg.all test = true) :
    (first.jumpAsDescribed count transition args).Like alike same (second.jumpAsDescribed count other args) := by
  cases args with
  | nil => exact ⟨.cons (arrive_parallel parallel before (parallel.refl _)) .nil, .nil⟩
  | cons descriptor args =>
    have said := describe_parallel parallel count (inArgs descriptor List.mem_cons_self)
    exact ⟨.cons (arrive_parallel parallel (handledBy_parallel parallel before said.migration) said.destination) .nil,
      said.subs⟩

theorem perform_parallel (count : Nat) {chain : Chain} (holds : chain.Holds test) :
    (first.perform count transition chain).Like alike same (second.perform count other chain) := by
  have inArgs := holds.args
  unfold perform
  cases Operation.ofName chain.name with
  | callSubroutine =>
    dsimp only
    split
    · next machine migrate exit isCall =>
      rw [isCall] at inArgs
      exact subroutine_parallel parallel before count machine (inArgs migrate (by simp)) (inArgs exit (by simp))
    · exact ⟨.cons (arrive_parallel parallel before (parallel.refl _)) .nil, .nil⟩
  | fail =>
    exact ⟨.cons { before with destination := parallel.refl _, operation := rfl, inherits := rfl } .nil, .nil⟩
  | stop => exact ⟨.cons { before with destination := parallel.refl _, inherits := rfl } .nil, .nil⟩
  | replace =>
    refine jumpTo_parallel parallel ?_ count .construction inArgs
    exact { before with operation := rfl, inherits := rfl }
  | replaceWith =>
    refine jumpTo_parallel parallel ?_ count .plain inArgs
    exact { before with operation := rfl, inherits := rfl }
  | repeatOrElse => exact ⟨.cons { before with destination := parallel.refl _ } .nil, .nil⟩
  | repeatOrJump =>
    have jump := jumpTo_parallel parallel before count .execution inArgs
    dsimp only
    split
    · exact jump
    · exact ⟨.cons before jump.transitions, jump.subs⟩
  | repeatOrJumpAsDescribed =>
    have jump := jumpAsDescribed_parallel parallel before count inArgs
    exact ⟨.cons before jump.transitions, jump.subs⟩
  | jumpAsDescribed => exact jumpAsDescribed_parallel parallel before count inArgs
  | jump =>
    dsimp only
    split
    · exact ⟨.cons before .nil, .nil⟩
    · rw [before.operation]
      refine jumpTo_parallel parallel ?_ count .execution inArgs
      exact { before with operation := rfl }

end Transition

theorem chainOf_parallel (count : Nat) (update : Update) :
    (first.chainOf count update).1 = (second.chainOf count update).1 ∧
      List.Forall₂ same (first.chainOf count update).2 (second.chainOf count update).2 := by
  cases update with
  | chain chain => exact ⟨rfl, .nil⟩
  | built type => exact ⟨rfl, .cons (parallel.built _) .nil⟩

theorem defaultHandler_parallel (count : Nat) {handler : Option Expr} (every : ∀ expr ∈ handler, expr.all test = true) :
    MetLike alike same (first.defaultHandler count handler) (second.defaultHandler count handler) := by
  cases handler with
  | none => exact ⟨parallel.refl _, .nil⟩
  | some handler => exact refer_parallel parallel .execution count (every handler rfl)

/-- **Both tracings find the same for an exit**, up to names and inner steps. -/
theorem transitionsOf_parallel (count : Nat) {exit : Exit} (holds : exit.Holds test) :
    (first.transitionsOf count exit).Like alike same (second.transitionsOf count exit) := by
  obtain ⟨sameChain, built⟩ := chainOf_parallel parallel count exit.update
  have inDefault : ∀ expr ∈ exit.defaults.migration, expr.all test = true := by
    intro expr isDefault
    refine exprsAll_iff.1 holds.defaults expr ?_
    simp [Defaults.kept, Option.mem_def.1 isDefault]
  have chainHolds : (second.chainOf count exit.update).1.Holds test := by
    have holdsUpdate := holds.update
    cases found : exit.update with
    | chain chain => rwa [found] at holdsUpdate
    | built type => exact rfl
  have handlers := defaultHandler_parallel parallel (count + (second.chainOf count exit.update).2.length) inDefault
  have start : Transition.Like alike
      { migration := (first.defaultHandler (count + (second.chainOf count exit.update).2.length) exit.defaults.migration).1
        inherits := exit.defaults.migration.isNone }
      { migration := (second.defaultHandler (count + (second.chainOf count exit.update).2.length) exit.defaults.migration).1
        inherits := exit.defaults.migration.isNone } :=
    ⟨parallel.refl _, handlers.1, parallel.refl _, rfl, rfl, rfl, rfl⟩
  have inner := List.rel_append built handlers.2
  unfold transitionsOf
  simp only [sameChain, built.length_eq, handlers.2.length_eq, parallel.kind]
  split
  · exact .after inner ⟨.cons { start with destination := parallel.refl _ } .nil, .nil⟩
  · exact .after inner ⟨.cons { start with destination := parallel.refl _ } .nil, .nil⟩
  · refine .after inner (perform_parallel parallel ?_ _ chainHolds)
    exact { start with operation := rfl }

/-- The moves and inner steps that two tracings find are the same, up to names and inner steps. -/
def MovesLike (alike : String → String → Prop) (same : Outline → Outline → Prop) (met other : List Move × List Outline) :
    Prop :=
  List.Forall₂ (Move.Like alike) met.1 other.1 ∧ List.Forall₂ same met.2 other.2

theorem moves_parallel {exits : List Exit} (holds : ∀ exit ∈ exits, exit.Holds test) :
    MovesLike alike same (first.moves exits) (second.moves exits) := by
  unfold moves
  suffices follow : ∀ (exits : List Exit) (met other : List Move × List Outline), (∀ exit ∈ exits, exit.Holds test) →
      MovesLike alike same met other → MovesLike alike same
        (exits.foldl (fun met exit =>
          let found := first.transitionsOf met.2.length exit
          (met.1 ++ found.transitions.map (Move.mk exit.guard), met.2 ++ found.subs)) met)
        (exits.foldl (fun met exit =>
          let found := second.transitionsOf met.2.length exit
          (met.1 ++ found.transitions.map (Move.mk exit.guard), met.2 ++ found.subs)) other) from
    follow exits ([], []) ([], []) holds ⟨.nil, .nil⟩
  intro exits
  induction exits with
  | nil => exact fun met other _ like => like
  | cons exit exits ih =>
    intro met other holds like
    refine ih _ _ (fun later member => holds later (List.mem_cons_of_mem _ member)) ?_
    have found := transitionsOf_parallel parallel other.2.length (holds exit List.mem_cons_self)
    dsimp only
    rw [like.2.length_eq]
    refine ⟨List.rel_append like.1 ?_, List.rel_append like.2 found.subs⟩
    rw [List.forall₂_map_left_iff, List.forall₂_map_right_iff]
    exact found.transitions.imp fun _ _ sameTransition => ⟨rfl, sameTransition⟩

end Parallel

end Tracing

end StepChart
