import StepChart.Proofs.Trace.ReachedReturns
import StepChart.Proofs.Trace.Tracers

/-!
# What each return hands over

The moves and inner steps of a step are those of its exits, one exit after the other. The trail of a body keeps them
apart: it says for each exit where in the body it stands, by numbers (`Site.place`), and what it hands over. The moves
of a step are the moves of its trail, and its inner steps are those of its trail (`trace_eq_trail`).
-/

namespace StepChart

open Syntax

/-! ## Places by numbers -/

/-- The place of a return by numbers: from the outside in, the place of a statement in its list, counted from zero, and
the branch of the statement, which is one for the alternative of an `if` and zero for any other. -/
def Site.place : Site → List Nat
  | here before _ => [before.length]
  | inside before guard site => before.length :: (if guard.any (·.inverted) then 1 else 0) :: site.place

/-- The exit at a place, with the place. -/
def Site.locate (signature : Signature) (guard : Option Guard) (standing : Standing) (site : Site) :
    Option (List Nat × Exit) :=
  (site.exitFrom signature guard standing).map (site.place, ·)

/-- The exits in a list of statements, with their places, if `standing` is in force at its beginning and the list
stands in a branch with `guard`. -/
def exitsAt (signature : Signature) (guard : Option Guard) (standing : Standing) (list : List Stmt) :
    List (List Nat × Exit) :=
  (returnsIn list).filterMap (Site.locate signature guard standing)

theorem map_exitsAt (signature : Signature) (body : List Stmt) :
    (exitsAt signature none (.start signature.contextArg) body).map Prod.snd = exitsOf signature body := by
  unfold exitsAt exitsOf
  rw [List.map_filterMap]
  congr 1
  funext site
  simp [Site.locate, Function.comp_def]

/-! ## Trails -/

/-- What an exit hands over: its transitions, and the inner steps they gave rise to. -/
structure Handed where
  place : List Nat
  exit : Exit
  found : Tracing.Found

/-- The exit with its place. -/
def Handed.located (handed : Handed) : List Nat × Exit := (handed.place, handed.exit)

/-- The moves of an exit. -/
def Handed.moves (handed : Handed) : List Move := handed.found.transitions.map (Move.mk handed.exit.guard)

/-- The inner steps that an exit gives rise to. -/
def Handed.subs (handed : Handed) : List Outline := handed.found.subs

namespace Tracing

/-- What exits hand over one after the other, after `count` inner steps. -/
def hand (tracing : Tracing) : (count : Nat) → List (List Nat × Exit) → List Handed
  | _, [] => []
  | count, (place, exit) :: rest =>
    let found := tracing.transitionsOf count exit
    ⟨place, exit, found⟩ :: tracing.hand (count + found.subs.length) rest

variable (tracing : Tracing)

theorem hand_append (count : Nat) (exits more : List (List Nat × Exit)) :
    tracing.hand count (exits ++ more) = tracing.hand count exits ++
      tracing.hand (count + ((tracing.hand count exits).flatMap Handed.subs).length) more := by
  induction exits generalizing count with
  | nil => simp [hand]
  | cons entry rest ih =>
    rw [List.cons_append, hand, hand, ih]
    simp [Handed.subs, Nat.add_assoc]

theorem map_located_hand (count : Nat) (exits : List (List Nat × Exit)) :
    (tracing.hand count exits).map Handed.located = exits := by
  induction exits generalizing count with
  | nil => rfl
  | cons entry rest ih =>
    rw [hand, List.map_cons, ih]
    rfl

variable {tracing} in
/-- An exit is turned into transitions after the inner steps of the exits before it. -/
theorem found_of_hand {count : Nat} {exits : List (List Nat × Exit)} {before after : List Handed} {handed : Handed}
    (split : tracing.hand count exits = before ++ handed :: after) :
    handed.found = tracing.transitionsOf (count + (before.flatMap Handed.subs).length) handed.exit := by
  induction before generalizing count exits with
  | nil =>
    cases exits with
    | nil => simp [hand] at split
    | cons entry rest =>
      obtain ⟨rfl, -⟩ := List.cons.inj split
      rfl
  | cons first before ih =>
    cases exits with
    | nil => simp [hand] at split
    | cons entry rest =>
      obtain ⟨rfl, later⟩ := List.cons.inj split
      rw [ih later]
      simp [Handed.subs, Nat.add_assoc]

/-- The moves of exits are those that they hand over. -/
theorem moves_eq_hand (exits : List (List Nat × Exit)) :
    tracing.moves (exits.map Prod.snd) =
      ((tracing.hand 0 exits).flatMap Handed.moves, (tracing.hand 0 exits).flatMap Handed.subs) := by
  suffices follow : ∀ met : List Move × List Outline, (exits.map Prod.snd).foldl (fun met exit =>
      let found := tracing.transitionsOf met.2.length exit
      (met.1 ++ found.transitions.map (Move.mk exit.guard), met.2 ++ found.subs)) met =
        (met.1 ++ (tracing.hand met.2.length exits).flatMap Handed.moves,
          met.2 ++ (tracing.hand met.2.length exits).flatMap Handed.subs) from
    follow ([], [])
  induction exits with
  | nil => simp [hand]
  | cons entry rest ih =>
    intro met
    rw [List.map_cons, List.foldl_cons, ih]
    simp [hand, Handed.moves, Handed.subs]

end Tracing

/-- What the exits of a step with the given body hand over. -/
def trail (framework : String) (signature : Signature) (body : List Stmt) : List Handed :=
  Tracing.hand ⟨framework, signature, outline framework (stmtsSize body)⟩ 0
    (exitsAt signature none (.start signature.contextArg) body)

/-- What is handed over comes from an exit of the body. -/
theorem located_mem_exitsAt {framework : String} {signature : Signature} {body : List Stmt} {handed : Handed}
    (member : handed ∈ trail framework signature body) :
    handed.located ∈ exitsAt signature none (.start signature.contextArg) body := by
  have located := List.mem_map_of_mem (f := Handed.located) member
  rwa [trail, Tracing.map_located_hand] at located

/-- **A step is its trail.** -/
theorem trace_eq_trail (framework : String) (signature : Signature) (body : List Stmt) :
    (trace framework signature body).moves = (trail framework signature body).flatMap Handed.moves ∧
      (trace framework signature body).subSteps = (trail framework signature body).flatMap Handed.subs := by
  have moves := Tracing.moves_eq_hand ⟨framework, signature, outline framework (stmtsSize body)⟩
    (exitsAt signature none (.start signature.contextArg) body)
  rw [map_exitsAt, ← walk_exits] at moves
  exact ⟨congrArg Prod.fst moves, congrArg Prod.snd moves⟩

end StepChart
