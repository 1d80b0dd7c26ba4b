import StepChart.Proofs.Syntax.Subterms
import StepChart.Proofs.Trace.Parallel

/-!
# Function literals that are traced otherwise

How function literals are traced shows in the inner steps of a step and nowhere else: with another tracer the same
transitions are found, and as many inner steps, which are related as the tracers are (`Tracer.Related`,
`transitionsOf_related`). Related to itself, a tracer says what holds of all inner steps (`transitionsOf_every`).
-/

namespace StepChart

open Syntax

/-- The step stands for a machine: for one that is built in place, or for one that runs as a subroutine and leads to what
runs after it. -/
inductive Outline.ForMachine : Outline → Prop
  | built (signature : Signature) : ForMachine { signature, isSubroutine := true }
  | entered (signature : Signature) (resumption : String) (migrations : Text.NameSet) :
      ForMachine
        { signature, moves := [{ transition := { destination := resumption } }], migrations, isSubroutine := true }

theorem Outline.ForMachine.flag {outline : Outline} (machine : outline.ForMachine) : outline.isSubroutine = true := by
  cases machine <;> rfl

/-- Two tracers trace the function literals for which the test holds, everywhere inside, into related outlines. -/
structure Tracer.Related (same : Outline → Outline → Prop) (test : Expr → Bool) (tracer other : Tracer) : Prop where
  machines : ∀ outline : Outline, outline.ForMachine → same outline outline
  traced : ∀ {span : Span} {params results : List Field} {body : List Stmt},
    (Expr.func span params results body).all test = true → ∀ signature, same (tracer signature body) (other signature body)

variable {same : Outline → Outline → Prop} {test : Expr → Bool} {tracing : Tracing} {other : Tracer}

/-- With related tracers, a step is traced side by side, and all names are the same. -/
theorem Tracer.Related.parallel (related : Tracer.Related same test tracing.tracer other) :
    Tracing.Parallel Eq same test tracing { tracing with tracer := other } where
  refl _ := rfl
  isEmpty equal := congrArg String.isEmpty equal
  kind := rfl
  within _ := rfl
  built _ := related.machines _ (.built _)
  entered _ := by
    rintro resumption _ migration _ rfl rfl
    exact related.machines _ (.entered _ _ _)
  literal inside _ _ := related.traced inside _

theorem Transition.Like.eq {first second : Transition} (like : first.Like Eq second) : first = second := by
  obtain ⟨destination, migration, resumption, condition, operation, inherits, targets⟩ := like
  cases first
  cases second
  simp_all

namespace Tracing

/-- The same transitions, and related inner steps. -/
structure Found.Alike (same : Outline → Outline → Prop) (found other : Found) : Prop where
  transitions : found.transitions = other.transitions
  subs : List.Forall₂ same found.subs other.subs

/-- **Another tracer finds the same transitions** for an exit, and related inner steps. -/
theorem transitionsOf_related (related : Tracer.Related same test tracing.tracer other) (count : Nat) {exit : Exit}
    (holds : exit.Holds test) :
    (tracing.transitionsOf count exit).Alike same
      (Tracing.transitionsOf { tracing with tracer := other } count exit) := by
  obtain ⟨transitions, subs⟩ := transitionsOf_parallel related.parallel count holds
  have equal := transitions.imp fun _ _ => Transition.Like.eq
  rw [List.forall₂_eq_eq_eq] at equal
  exact ⟨equal, subs⟩

end Tracing

/-! ## Inner steps one by one -/

/-- What holds of steps for machines and of traced function literals holds of the inner steps of an exit. -/
theorem Tracing.transitionsOf_every {every : Outline → Prop} {test : Expr → Bool} {tracing : Tracing}
    (machines : ∀ outline : Outline, outline.ForMachine → every outline)
    (traced : ∀ {span : Span} {params results : List Field} {body : List Stmt},
      (Expr.func span params results body).all test = true → ∀ signature, every (tracing.tracer signature body))
    (count : Nat) {exit : Exit} (holds : exit.Holds test) :
    ∀ sub ∈ (tracing.transitionsOf count exit).subs, every sub := by
  have related : Tracer.Related (fun outline _ => every outline) test tracing.tracer tracing.tracer := ⟨machines, traced⟩
  have alike : List.Forall₂ (fun outline _ => every outline) (tracing.transitionsOf count exit).subs
      (tracing.transitionsOf count exit).subs := (transitionsOf_related related count holds).subs
  rwa [List.forall₂_same] at alike

/-! ## Any other tracer -/

theorem Chain.holds_of_forall {test : Expr → Bool} (always : ∀ expr, test expr = true) :
    (chain : Chain) → chain.Holds test
  | .context call | .root _ call => exprsAll_of_forall always (call.getD [])
  | .child parent _ call => ⟨holds_of_forall always parent, exprsAll_of_forall always (call.getD [])⟩

theorem Exit.holds_of_forall {test : Expr → Bool} (always : ∀ expr, test expr = true) (exit : Exit) :
    exit.Holds test := by
  refine ⟨?_, exprsAll_of_forall always exit.defaults.kept⟩
  cases exit.update with
  | chain chain => exact chain.holds_of_forall always
  | built type =>
    cases type with
    | none => exact rfl
    | some type => exact (Expr.all_iff_subterms type).2 fun inner _ => always inner

/-- The transitions of an exit, and the number of inner steps, do not depend on the tracer. -/
theorem Tracing.transitionsOf_tracer (tracing : Tracing) (other : Tracer) (count : Nat) (exit : Exit) :
    (tracing.transitionsOf count exit).transitions =
        (Tracing.transitionsOf { tracing with tracer := other } count exit).transitions ∧
      (tracing.transitionsOf count exit).subs.length =
        (Tracing.transitionsOf { tracing with tracer := other } count exit).subs.length := by
  have related : Tracer.Related (fun _ _ => True) (fun _ => true) tracing.tracer other :=
    ⟨fun _ _ => trivial, fun _ _ => trivial⟩
  have alike := transitionsOf_related related count (exit.holds_of_forall fun _ => rfl)
  exact ⟨alike.transitions, alike.subs.length_eq⟩

end StepChart
