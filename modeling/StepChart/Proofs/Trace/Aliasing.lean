import StepChart.Proofs.Trace.Depth
import StepChart.Proofs.Trace.ScopeChain

/-!
# Names for the context

A local name that was assigned a chain of the context can be used in place of the chain, whatever is selected from it
or called on it afterwards; a name that was assigned anything else stands for itself (`resolve_assign_ident`). So a body
may name what it is going to return before it returns it, and nothing changes for the step (`alias_transparent`).
-/

namespace StepChart

open Syntax

/-! ## Selections and calls around a head -/

/-- Selections and calls, one around the other, around a head that is left open. -/
inductive Spine where
  | head
  | selector (span : Span) (operand : Spine) (field : String)
  | call (span : Span) (function : Spine) (args : List Expr)

namespace Spine

/-- The expression with the given head. -/
def plug (value : Expr) : Spine → Expr
  | .head => value
  | .selector span operand field => .selector span (operand.plug value) field
  | .call span function args => .call span (function.plug value) args

/-- The chain with the given beginning. -/
def extend (chain : Chain) : Spine → Chain
  | .head => chain
  | .selector _ operand field => .child (operand.extend chain) field none
  | .call _ function args => (function.extend chain).called args

end Spine

namespace Scope

variable {scope : Scope} {name : String} {value : Expr}

/-- What is written around a head extends the chain that the head denotes. -/
theorem resolve_plug (scope : Scope) (value : Expr) (spine : Spine) :
    scope.resolve (spine.plug value) = (scope.resolve value).map fun chain => spine.extend chain := by
  induction spine with
  | head => exact Option.map_id'.symm
  | selector span operand field ih =>
    rw [Spine.plug, resolve, ih, Option.map_map]
    rfl
  | call span function args ih =>
    rw [Spine.plug, resolve, ih, Option.map_map]
    rfl

/-! ## Assignments of one name -/

/-- The expression denotes a chain that starts at the context. -/
def DenotesContext (scope : Scope) (value : Expr) : Prop :=
  ∃ chain, scope.resolve value = some chain ∧ chain.isContext = true

theorem contextValue_eq_resolve (denotes : scope.DenotesContext value) :
    scope.contextValue value = scope.resolve value := by
  obtain ⟨chain, resolved, isContext⟩ := denotes
  rw [contextValue, resolved, Option.filter_some, if_pos isContext]

theorem contextValue_eq_none (otherwise : ¬ scope.DenotesContext value) : scope.contextValue value = none := by
  rw [contextValue, Option.filter_eq_none_iff]
  exact fun chain resolved isContext => otherwise ⟨chain, resolved, isContext⟩

/-- After an assignment its name stands for the value, or for itself if that is no chain of the context. -/
theorem resolve_assign_ident (notBlank : name ≠ "_") (scope : Scope) (value : Expr) (span : Span) :
    (scope.assign [some name] [value]).resolve (.ident span name) =
      some ((scope.contextValue value).getD (.root name none)) := by
  have bound : scope.assign [some name] [value] = scope.set name (scope.contextValue value) := if_neg notBlank
  rw [bound, resolve, lookup_set, Function.update_self]

/-- **A name for a chain of the context is as good as the chain.** -/
theorem resolve_plug_assign (notBlank : name ≠ "_") (denotes : scope.DenotesContext value) (spine : Spine)
    (span : Span) : (scope.assign [some name] [value]).resolve (spine.plug (.ident span name)) =
      scope.resolve (spine.plug value) := by
  rw [resolve_plug, resolve_plug, resolve_assign_ident notBlank, contextValue_eq_resolve denotes]
  obtain ⟨chain, resolved, -⟩ := denotes
  rw [resolved]
  rfl

/-- A name for anything else is a plain name, even if it was the name of the context before. -/
theorem resolve_plug_assign_other (notBlank : name ≠ "_") (otherwise : ¬ scope.DenotesContext value) (spine : Spine)
    (span : Span) : (scope.assign [some name] [value]).resolve (spine.plug (.ident span name)) =
      some (spine.extend (.root name none)) := by
  rw [resolve_plug, resolve_assign_ident notBlank, contextValue_eq_none otherwise]
  rfl

end Scope

/-! ## Returns -/

namespace Walk

/-- What denotes a chain is handed back as this chain by steps of all kinds. -/
theorem updateOf_eq_chain {scope : Scope} {expr : Expr} {chain : Chain} (resolved : scope.resolve expr = some chain)
    (kind : Kind) : updateOf scope kind expr = some (.chain chain) := by
  have denoted : (scope.resolve expr).map Update.chain = some (.chain chain) := by
    rw [resolved]
    rfl
  cases expr with
  | ident span name | selector span operand field | call span function args => simpa [updateOf] using denoted
  | _ => cases resolved

/-- One value alone is at the first place, and it is what is returned where no place is said. -/
theorem returned_singleton (scope : Scope) (signature : Signature) (value : Expr) :
    returned scope signature [value] =
      if signature.updateIndex ≤ 1 then updateOf scope signature.kind value else none := by
  unfold returned
  match signature.updateIndex with
  | 0 | 1 => rfl
  | index + 2 => rfl

/-- A name for a chain of the context can be returned in place of the chain. -/
theorem returned_plug_assign {scope : Scope} {name : String} {value : Expr} (notBlank : name ≠ "_")
    (denotes : scope.DenotesContext value) (signature : Signature) (spine : Spine) (span : Span) :
    returned (scope.assign [some name] [value]) signature [spine.plug (.ident span name)] =
      returned scope signature [spine.plug value] := by
  have same := Scope.resolve_plug_assign notBlank denotes spine span
  obtain ⟨chain, resolved, -⟩ := denotes
  have whole : scope.resolve (spine.plug value) = some (spine.extend chain) := by
    rw [Scope.resolve_plug, resolved]
    rfl
  rw [returned_singleton, returned_singleton, updateOf_eq_chain whole, updateOf_eq_chain (same.trans whole)]

/-- Following a list and then another one, unless the first one is left. -/
theorem stmts_append (signature : Signature) (first second : List Stmt) (walk : Walk) :
    stmts signature (first ++ second) walk =
      if first.any Stmt.leaves then stmts signature first walk
      else stmts signature second (stmts signature first walk).2 := by
  induction first generalizing walk with
  | nil =>
    rw [stmts]
    rfl
  | cons stmt rest ih =>
    rw [List.cons_append, stmts, stmts, List.any_cons]
    have flow := (stmt_acts signature stmt walk).flow
    generalize Walk.stmt signature stmt walk = result at flow ⊢
    obtain ⟨way, after⟩ := result
    cases way with
    | onward =>
      have stays : stmt.leaves = false := by simpa using flow
      rw [stays]
      exact ih after
    | out update =>
      have leaves : stmt.leaves = true := flow.2 ⟨update, rfl⟩
      rw [leaves]
      rfl

end Walk

/-- The scope at the end of the statements that a body begins with. -/
def scopeAfter (signature : Signature) (before : List Stmt) : Scope :=
  (Walk.stmts signature before { scope := (Scope.root signature.contextArg).spawn none }).2.scope

variable {name : String} {value : Expr}

/-- Naming a chain of the context before it is returned comes to the same as returning it. -/
theorem walk_named_return (notBlank : name ≠ "_") (signature : Signature) {before : List Stmt}
    (denotes : (scopeAfter signature before).DenotesContext value) (spine : Spine) (place span : Span) :
    walk signature (before ++ [.assign [.ident place name] [value], .ret [spine.plug (.ident span name)]]) =
      walk signature (before ++ [.ret [spine.plug value]]) := by
  unfold walk Walk.inBlock
  dsimp only
  rw [Walk.stmts_append, Walk.stmts_append]
  split
  · rfl
  · -- both lists end with a return here, and the scope that the name was bound in ends with them
    unfold scopeAfter at denotes
    generalize (Walk.stmts signature before _).2 = reached at denotes ⊢
    simp only [Walk.stmts, Walk.stmt, Walk.goOn, List.map_cons, List.map_nil, Scope.plainName?]
    rw [Walk.returned_plug_assign notBlank denotes]
    cases Walk.returned reached.scope signature [spine.plug value] <;> rfl

/-- Bodies that are followed in the same way have the same outline. -/
theorem trace_eq_of_walk_eq (framework : String) {signature : Signature} {first second : List Stmt}
    (same : walk signature first = walk signature second) :
    trace framework signature first = trace framework signature second := by
  have ofFirst := @outline_eq_trace framework (stmtsSize first + stmtsSize second + 1) signature first (by omega)
  have ofSecond := @outline_eq_trace framework (stmtsSize first + stmtsSize second + 1) signature second (by omega)
  rw [← ofFirst, ← ofSecond, outline, outlineWith, outlineWith, same]

/-- **Names for the context are transparent.** After a name was assigned a chain of the context, whatever is selected
from the name and called on it denotes what it would denote on the chain; after it was assigned anything else, the name
is a plain one. So a step whose body ends with an assignment of such a chain and a return through the name has the
outline of the step that returns through the chain: the same moves, inner steps and usages. -/
theorem alias_transparent {name : String} (notBlank : name ≠ "_") (value : Expr) (spine : Spine) (place span : Span) :
    (∀ scope : Scope,
      let resolved := (scope.assign [some name] [value]).resolve (spine.plug (.ident span name))
      (scope.DenotesContext value → resolved = scope.resolve (spine.plug value)) ∧
      (¬ scope.DenotesContext value → resolved = some (spine.extend (.root name none)))) ∧
    ∀ (framework : String) (signature : Signature) (before : List Stmt),
      (scopeAfter signature before).DenotesContext value →
      trace framework signature
          (before ++ [.assign [.ident place name] [value], .ret [spine.plug (.ident span name)]]) =
        trace framework signature (before ++ [.ret [spine.plug value]]) := by
  refine ⟨fun scope => ⟨fun denotes => ?_, fun otherwise => ?_⟩, fun framework signature before denotes => ?_⟩
  · exact Scope.resolve_plug_assign notBlank denotes spine span
  · exact Scope.resolve_plug_assign_other notBlank otherwise spine span
  · exact trace_eq_of_walk_eq framework (walk_named_return notBlank signature denotes spine place span)

/-- A name for `ctx.Sleep()`, which was taken before, hands over the same as the chain; and the context is lost when its
own name is assigned something else. -/
theorem alias_transparent_sleep :
    let sleep : Expr := .call default (.selector default (.ident default "ctx") "Sleep") []
    let thenRepeat : Spine := .call default (.selector default .head "ThenRepeat") []
    let signature : Signature := { kind := .execution, contextArg := "ctx", updateIndex := 1 }
    let before : List Stmt := [.assign [.ident default "wait"] [.ident default "ctx"]]
    let root := Scope.root "ctx"
    "wait" ≠ "_" ∧ (scopeAfter signature before).DenotesContext sleep ∧
      trace "smachine" signature
          (before ++ [.assign [.ident default "wait"] [sleep], .ret [thenRepeat.plug (.ident default "wait")]]) =
        trace "smachine" signature (before ++ [.ret [thenRepeat.plug sleep]]) ∧
      ((trace "smachine" signature (before ++ [.ret [thenRepeat.plug sleep]])).moves.map fun move =>
        move.transition.operation) = ["Sleep"] ∧
      "ctx" ≠ "_" ∧ ¬ root.DenotesContext (.ident default "other") ∧
      (root.assign [some "ctx"] [.ident default "other"]).resolve (thenRepeat.plug (.ident default "ctx")) =
        some (.child (.root "ctx" none) "ThenRepeat" (some [])) := by
  intro sleep thenRepeat signature before root
  have notBlank : "wait" ≠ "_" := by decide
  have notBlankContext : "ctx" ≠ "_" := by decide
  have denotes : (scopeAfter signature before).DenotesContext sleep :=
    ⟨.child (.context none) "Sleep" (some []), rfl, rfl⟩
  have otherwise : ¬ root.DenotesContext (.ident default "other") := by
    rintro ⟨chain, resolved, isContext⟩
    obtain rfl : Chain.root "other" none = chain := Option.some.inj resolved
    cases isContext
  refine ⟨notBlank, denotes, ?_, ?_, notBlankContext, otherwise, ?_⟩
  · exact (alias_transparent notBlank sleep thenRepeat default default).2 "smachine" signature before denotes
  · decide +kernel
  · exact ((alias_transparent notBlankContext (.ident default "other") thenRepeat default default).1 root).2 otherwise

end StepChart
