import Mathlib.Logic.Function.Basic
import StepChart.Proofs.Basic
import StepChart.Trace.Exits

/-!
# Names as a plain environment

A chain of frames, each with a table of its own from the first binding on, reads like one function from
names to chains: a new frame starts with what can be read at that moment, and binding a name changes that
name alone. `Scope.Reads` says which environment and which guard a scope stands for, and every operation
on scopes has one lemma about it.
-/

namespace StepChart

open Syntax

/-- What names stand for. -/
abbrev Environment := String → Option Chain

namespace Environment

/-- At the beginning only the context parameter stands for something. -/
def start (contextArg : String) : Environment := fun name =>
  if contextArg ≠ "" ∧ contextArg = name then some (.context none) else none

/-- The chain that an expression denotes. -/
def resolve (names : Environment) : Expr → Option Chain
  | .selector _ operand field => (names.resolve operand).map fun parent => .child parent field none
  | .call _ function args => (names.resolve function).map (·.called args)
  | .ident _ name => some ((names name).getD (.root name none))
  | _ => none

/-- Binds names to values, each at its place, or clears them. -/
def bind (names : Environment) (targets : List (Option String)) (values : List (Option Chain)) : Environment :=
  targets.zipIdx.foldl (fun names entry =>
    match entry.1 with
    | some name => if name = "_" then names else Function.update names name (Scope.valueFor values entry.2)
    | none => names) names

/-- Assigns expressions to names at the same time. Only chains that start at the context are kept. -/
def assign (names : Environment) (targets : List (Option String)) (values : List Expr) : Environment :=
  names.bind targets (values.map fun value => (names.resolve value).filter Chain.isContext)

/-- Clears names. -/
def clear (names : Environment) (targets : List String) : Environment :=
  targets.foldl (fun names name => Function.update names name none) names

/-- Declares variables, one specification after the other. -/
def declare (names : Environment) (specs : List ValueSpec) : Environment :=
  specs.foldl (fun names spec => names.assign (spec.names.map some) spec.values) names

end Environment

/-! ## Simultaneous assignment -/

namespace Environment

/-- All values are found first, and only chains that start at the context count. Then a name has the value at
the last place where it stands, if it stands at one; a value alone is at all places, and a missing value is
none. The blank name stands at no place. -/
def assigned (names : Environment) (targets : List (Option String)) (values : List Expr) : Environment :=
  let found := values.map fun value => (names.resolve value).filter Chain.isContext
  fun name =>
    if name = "_" then names name
    else
      match targets.zipIdx.reverse.lookup (some name) with
      | some place => found[if found.length = 1 then 0 else place]?.join
      | none => names name

theorem valueFor_eq (values : List (Option Chain)) (index : Nat) :
    Scope.valueFor values index = values[if values.length = 1 then 0 else index]?.join := by
  unfold Scope.valueFor
  split
  · rfl
  · next other =>
    have several : values.length ≠ 1 := fun one => by
      obtain ⟨value, rfl⟩ := List.length_eq_one_iff.1 one
      exact other value rfl
    rw [if_neg several]

/-- Binding names one after the other leaves each name with the value at its last place. -/
theorem bind_apply (names : Environment) (targets : List (Option String)) (values : List (Option Chain)) (name : String) :
    names.bind targets values name =
      if name = "_" then names name
      else
        match targets.zipIdx.reverse.lookup (some name) with
        | some place => Scope.valueFor values place
        | none => names name := by
  unfold bind
  induction targets.zipIdx generalizing names with
  | nil => simp
  | cons entry entries ih =>
    obtain ⟨target, place⟩ := entry
    rw [List.foldl_cons, ih, List.reverse_cons, List.lookup_append]
    by_cases blank : name = "_"
    · rw [if_pos blank, if_pos blank]
      cases target with
      | none => rfl
      | some other =>
        dsimp only
        split
        · rfl
        · next notBlank => exact Function.update_of_ne (fun same => notBlank (same.symm.trans blank)) _ _
    · rw [if_neg blank, if_neg blank]
      cases entries.reverse.lookup (some name) with
      | some last => rfl
      | none =>
        -- no later place has the name, so the value at this one stays
        cases target with
        | none => rfl
        | some other =>
          by_cases same : name = other
          · subst same
            simp [blank]
          · have notHere : [(some other, place)].lookup (some name) = none := by
              rw [List.lookup_cons, beq_false_of_ne fun equal => same (Option.some.inj equal), List.lookup_nil]
            rw [notHere]
            dsimp only [Option.or]
            split
            · rfl
            · exact Function.update_of_ne same _ _

theorem assign_eq_assigned (names : Environment) (targets : List (Option String)) (values : List Expr) :
    names.assign targets values = names.assigned targets values := by
  funext name
  simp only [assign, assigned, bind_apply, valueFor_eq]

theorem clear_apply (names : Environment) (targets : List String) (name : String) :
    names.clear targets name = if name ∈ targets then none else names name := by
  unfold clear
  induction targets generalizing names with
  | nil => simp
  | cons target targets ih =>
    rw [List.foldl_cons, ih]
    by_cases same : name = target <;> simp [same]

end Environment

/-! ## Tables -/

namespace Aliases

/-- Setting a name in a table changes that name alone. -/
theorem lookup_set (aliases : Aliases) (name : String) (value : Option Chain) :
    (fun other => (aliases.set name value).lookup other) =
      Function.update (fun other => aliases.lookup other) name value := by
  funext other
  by_cases isName : other = name
  · subst isName
    rw [Function.update_self]
    cases value with
    | none => exact lookup_filter_self other aliases
    | some chain => simp [Aliases.set]
  · rw [Function.update_of_ne isName, ← lookup_filter_ne isName aliases]
    cases value with
    | none => rfl
    | some chain =>
      simp only [Aliases.set]
      rw [List.lookup_cons, beq_false_of_ne isName]

end Aliases

/-! ## Scopes -/

namespace Scope

/-- The table that is in force holds what can be looked up. -/
theorem lookup_inherited (contextArg name : String) (frames : List Frame) :
    (inherited contextArg frames).lookup name = lookupIn contextArg name frames := by
  induction frames with
  | nil =>
    unfold inherited lookupIn
    by_cases absent : contextArg = ""
    · simp [absent]
    · have present : contextArg.isEmpty = false := by simpa using absent
      rw [present]
      by_cases isName : contextArg = name
      · subst isName
        simp
      · simp [List.lookup_cons, isName, beq_false_of_ne (Ne.symm isName)]
  | cons frame outer ih =>
    unfold inherited lookupIn
    cases frame.aliases with
    | none => exact ih
    | some aliases => rfl

/-- A name that is not bound stands for nothing. -/
theorem lookupIn_of_not_bindsIn {contextArg name : String} {frames : List Frame}
    (unbound : bindsIn contextArg name frames = false) : lookupIn contextArg name frames = none := by
  induction frames with
  | nil =>
    unfold bindsIn at unbound
    unfold lookupIn
    simp [unbound]
  | cons frame outer ih =>
    unfold bindsIn at unbound
    unfold lookupIn
    cases own : frame.aliases with
    | none => exact ih (by simpa only [own] using unbound)
    | some aliases => simpa only [own, Option.isSome_eq_false_iff, Option.isNone_iff_eq_none] using unbound

/-- The environment and the guard that a scope stands for. -/
structure Reads (scope : Scope) (names : Environment) (guard : Option Guard) : Prop where
  lookup : scope.lookup = names
  guard? : scope.guard? = guard

variable {scope : Scope} {names : Environment} {guard : Option Guard}

theorem Reads.root (contextArg : String) : (root contextArg).Reads (.start contextArg) none := by
  refine ⟨funext fun name => ?_, rfl⟩
  show lookupIn contextArg name [{}] = _
  unfold lookupIn lookupIn Environment.start
  simp

/-- A new frame reads what the scope around it reads, and its own guard comes first. -/
theorem Reads.spawn (reads : scope.Reads names guard) (inner : Option Guard) :
    (scope.spawn inner).Reads names (inner.or guard) := by
  refine ⟨?_, ?_⟩
  · rw [← reads.lookup]
    rfl
  · rw [← reads.guard?]
    show ({ guard := inner } :: scope.frames : List Frame).findSome? Frame.guard = _
    cases inner with
    | none => rfl
    | some guard => rfl

/-- Setting a name changes that name alone, whether or not the frame has a table of its own. -/
theorem lookup_set (scope : Scope) (name : String) (value : Option Chain) :
    (scope.set name value).lookup = Function.update scope.lookup name value := by
  unfold set
  cases own : scope.frame.aliases with
  | some aliases =>
    have before : scope.lookup = fun other => aliases.lookup other := by
      funext other
      show lookupIn scope.contextArg other (scope.frame :: scope.outer) = _
      unfold lookupIn
      rw [own]
    rw [before, ← Aliases.lookup_set]
    rfl
  | none =>
    have before : scope.lookup = fun other => (inherited scope.contextArg scope.frames).lookup other :=
      funext fun other => (lookup_inherited scope.contextArg other scope.frames).symm
    dsimp only
    split
    next unchanged =>
      -- Clearing a name that is not bound makes no table, and there is nothing to clear.
      obtain ⟨cleared, unbound⟩ : value = none ∧ bindsIn scope.contextArg name scope.frames = false := by
        simpa using unchanged
      have absent : scope.lookup name = none := lookupIn_of_not_bindsIn unbound
      rw [cleared, ← absent, Function.update_eq_self]
    next => rw [before, ← Aliases.lookup_set]; rfl

theorem guard?_set (scope : Scope) (name : String) (value : Option Chain) :
    (scope.set name value).guard? = scope.guard? := by
  unfold set
  cases scope.frame.aliases with
  | some aliases => rfl
  | none =>
    dsimp only
    split <;> rfl

theorem Reads.set (reads : scope.Reads names guard) (name : String) (value : Option Chain) :
    (scope.set name value).Reads (Function.update names name value) guard :=
  ⟨by rw [lookup_set, reads.lookup], by rw [guard?_set, reads.guard?]⟩

theorem Reads.resolve (reads : scope.Reads names guard) (expr : Expr) : scope.resolve expr = names.resolve expr := by
  fun_induction Environment.resolve names expr with
  | case1 span operand field ih => rw [Scope.resolve, ih]
  | case2 span function args ih => rw [Scope.resolve, ih]
  | case3 span name => rw [Scope.resolve, reads.lookup]
  | case4 expr noSelector noCall noIdent => unfold Scope.resolve; split <;> simp_all

theorem Reads.bind (reads : scope.Reads names guard) (targets : List (Option String)) (values : List (Option Chain)) :
    (scope.bind targets values).Reads (names.bind targets values) guard := by
  unfold Scope.bind Environment.bind
  induction targets.zipIdx generalizing scope names with
  | nil => exact reads
  | cons entry entries ih =>
    obtain ⟨target, index⟩ := entry
    refine ih ?_
    cases target with
    | none => exact reads
    | some name =>
      dsimp only
      split
      · exact reads
      · exact reads.set name _

theorem Reads.assign (reads : scope.Reads names guard) (targets : List (Option String)) (values : List Expr) :
    (scope.assign targets values).Reads (names.assign targets values) guard := by
  have found : values.map scope.contextValue = values.map fun value => (names.resolve value).filter Chain.isContext :=
    List.map_congr_left fun value _ => by rw [Scope.contextValue, reads.resolve]
  unfold Scope.assign Environment.assign
  rw [found]
  exact reads.bind targets _

theorem Reads.clear (reads : scope.Reads names guard) (targets : List String) :
    (scope.clear targets).Reads (names.clear targets) guard := by
  unfold Scope.clear Environment.clear
  induction targets generalizing scope names with
  | nil => exact reads
  | cons name targets ih => exact ih (reads.set name none)

theorem Reads.declare (reads : scope.Reads names guard) (specs : List ValueSpec) :
    (Walk.declare scope specs).Reads (names.declare specs) guard := by
  unfold Walk.declare Environment.declare
  induction specs generalizing scope names with
  | nil => exact reads
  | cons spec specs ih => exact ih (reads.assign _ _)

end Scope

end StepChart
