import StepChart.Proofs.Naming.Outlines

/-!
# Where transitions lead

A transition leads to an inner step that was met with it, or to a name that is no name of a subroutine: one with at most
one dot, or one that ends in a brace (`Leads`, `transitionsOf_leads`). So the transition into a subroutine is the only one
of its step that leads there.
-/

namespace StepChart

open Syntax Text

/-- The name has at most one dot, or it ends as names of machines built in place do. -/
def isPlain (name : String) : Bool := decide (name.toList.count '.' ≤ 1) || name.toList.getLast? == some '\x7d'

/-- The name is plain, or it belongs to one of `length` slots after the first `count` slots of the step `parent`. -/
def Leads (parent : String) (count length : Nat) (name : String) : Prop :=
  isPlain name = true ∨ ∃ index, count ≤ index ∧ index < count + length ∧ InSlot parent index name

/-- The name of a subroutine is not plain: it has two dots, and it ends in a digit. -/
theorem Role.Names.isPlain_eq_false {parent name : String} {index : Nat} (names : subroutine.Names parent index name) :
    isPlain name = false := by
  obtain ⟨last, isLast, digit⟩ := names.getLast?_isDigit (by decide)
  have noBrace : last ≠ '\x7d' := by
    rintro rfl
    exact absurd digit (by decide)
  obtain ⟨machine, -, rfl⟩ := names
  have dots : 2 ≤ (parent ++ "." ++ machine ++ "." ++ toString (index + 1)).toList.count '.' := by
    simp only [String.toList_append, List.count_append]
    have one : ".".toList.count '.' = 1 := by decide
    omega
  rw [isPlain, Bool.or_eq_false_iff]
  refine ⟨decide_eq_false (by omega), ?_⟩
  rw [Option.mem_def.1 isLast]
  simpa using noBrace

namespace Leads

variable {parent name : String} {count length : Nat}

theorem mono {first more : Nat} (leads : Leads parent count length name) (begins : first ≤ count)
    (ends : count + length ≤ first + more) : Leads parent first more name := by
  rcases leads with plain | ⟨index, above, below, inSlot⟩
  · exact .inl plain
  · exact .inr ⟨index, by omega, by omega, inSlot⟩

/-- A name that leads elsewhere is not that of a subroutine. -/
theorem ne_subroutine {index : Nat} {subroutine : String} (leads : Leads parent count length name)
    (names : Role.subroutine.Names parent index subroutine) (elsewhere : index < count ∨ count + length ≤ index) :
    name ≠ subroutine := by
  rintro rfl
  rcases leads with plain | ⟨other, above, below, inSlot⟩
  · rw [names.isPlain_eq_false] at plain
    cases plain
  · have same := inSlot.unique (names.inSlot (by decide))
    omega

theorem arrive (transition : Transition) (leads : Leads parent count length name) :
    Leads parent count length (Tracing.arrive transition name).destination := by
  unfold Tracing.arrive
  dsimp only
  split
  · exact .inl (by decide)
  · exact leads

end Leads

/-! ## Names that are written out -/

theorem count_dot_of_isIdentifierLike {text : String} (like : isIdentifierLike text = true) : text.toList.count '.' = 0 := by
  simpa [isIdentifierLike, List.count_eq_zero] using (Bool.and_eq_true_iff.1 like).2

theorem isPlain_of_count {name : String} (few : name.toList.count '.' ≤ 1) : isPlain name = true := by
  simp [isPlain, few]

theorem isPlain_of_isIdentifierLike {name : String} (like : isIdentifierLike name = true) : isPlain name = true :=
  isPlain_of_count (by simp [count_dot_of_isIdentifierLike like])

theorem isPlain_dotted {expr : Expr} (every : expr.all isNamed = true) : isPlain (dotted expr.qualifiedName) = true := by
  fun_cases Expr.qualifiedName expr with
  | case1 outer inner qualifier name =>
    have likeName : isIdentifierLike name = true := Expr.all_self every
    have likeQualifier : isIdentifierLike qualifier = true := Expr.all_self (Expr.all_selector every)
    unfold dotted
    split
    · exact isPlain_of_isIdentifierLike likeName
    · apply isPlain_of_count
      simp [count_dot_of_isIdentifierLike likeName, count_dot_of_isIdentifierLike likeQualifier]
  | case2 | case3 => exact isPlain_of_isIdentifierLike (Expr.all_self every)
  | case4 => rfl

theorem isPlain_builtName (type : Option Expr) : isPlain (builtName type) = true := by
  simp [isPlain, getLast?_builtName]

theorem count_dot_qualifiedName {expr : Expr} (every : expr.all isNamed = true) :
    expr.qualifiedName.2.toList.count '.' = 0 := by
  fun_cases Expr.qualifiedName expr with
  | case1 | case2 | case3 => exact count_dot_of_isIdentifierLike (Expr.all_self every)
  | case4 => rfl

/-! ## Transitions -/

namespace Tracing

variable (tracing : Tracing)

theorem refer_leads (kind : Kind) (count : Nat) {expr : Expr} (every : expr.all isNamed = true) :
    Leads tracing.signature.name count (tracing.refer kind count expr).2.length (tracing.refer kind count expr).1 := by
  fun_induction Tracing.refer tracing kind count expr with
  | case1 => exact .inl rfl
  | case2 span operand _ ih => exact ih (Expr.all_unary every)
  | case3 span type elements => exact .inl (isPlain_builtName type)
  | case4 => exact .inl rfl
  | case5 span params results body =>
    have names : Role.literal.Names tracing.signature.name count
        (tracing.signature.name ++ "." ++ toString (count + 1)) := rfl
    exact .inr ⟨count, Nat.le_refl _, by simp, names.inSlot (by decide)⟩
  | case6 expr =>
    left
    split
    · rfl
    · exact isPlain_dotted every

/-- What a descriptor says leads to the inner steps that were met while it was read. -/
theorem describeEntry_leads (count : Nat) {said : Description} {expr : Expr} (every : expr.all isNamed = true)
    (before : Leads tracing.signature.name count said.subs.length said.destination) :
    Leads tracing.signature.name count (tracing.describeEntry count said expr).subs.length
      (tracing.describeEntry count said expr).destination := by
  fun_cases Tracing.describeEntry tracing count said expr with
  | case1 span key value _ destination added met =>
    have leads := tracing.refer_leads .execution (count + said.subs.length) (Expr.all_keyValue every).2
    rw [met] at leads
    exact leads.mono (by omega) (by simp; omega)
  | case2 span key value _ _ migration added met => exact before.mono (Nat.le_refl _) (by simp)
  | case3 => exact before
  | case4 => exact before

theorem describeEntries_leads (count : Nat) {entries : List Expr} (every : exprsAll isNamed entries = true)
    {said : Description} (before : Leads tracing.signature.name count said.subs.length said.destination) :
    Leads tracing.signature.name count (entries.foldl (tracing.describeEntry count) said).subs.length
      (entries.foldl (tracing.describeEntry count) said).destination := by
  induction entries generalizing said with
  | nil => exact before
  | cons entry entries ih =>
    obtain ⟨inEntry, inEntries⟩ := Bool.and_eq_true_iff.1 every
    exact ih inEntries (tracing.describeEntry_leads count inEntry before)

theorem describe_leads (count : Nat) {expr : Expr} (every : expr.all isNamed = true) :
    Leads tracing.signature.name count (tracing.describe count expr).subs.length (tracing.describe count expr).destination := by
  have dynamic : isPlain ("DYNAMIC " ++ expr.qualifiedName.2) = true := by
    apply isPlain_of_count
    simp [count_dot_qualifiedName every]
  unfold describe
  split
  · split
    · exact tracing.describeEntries_leads count (Expr.all_composite every).2 (.inl rfl)
    · exact .inl dynamic
  · exact .inl dynamic

/-- The transitions that were found lead to the inner steps that were met with them, or to plain names. -/
def Found.Leads (parent : String) (count : Nat) (found : Found) : Prop :=
  ∀ transition ∈ found.transitions, StepChart.Leads parent count found.subs.length transition.destination

theorem Found.Leads.one {parent : String} {count : Nat} {transition : Transition} {subs : List Outline}
    (leads : StepChart.Leads parent count subs.length transition.destination) :
    Found.Leads parent count { transitions := [transition], subs } := by
  intro other member
  rwa [List.mem_singleton.1 member]

theorem Found.Leads.orRepeat {parent : String} {count : Nat} {transition : Transition} {found : Found}
    (leads : found.Leads parent count) (plain : isPlain transition.destination = true) :
    (Tracing.orRepeat transition found).Leads parent count := by
  intro other member
  rcases List.mem_cons.1 member with rfl | later
  · exact .inl plain
  · exact leads other later

theorem jumpTo_leads (count : Nat) (transition : Transition) (kind : Kind) {args : List Expr}
    (inArgs : ∀ arg ∈ args, arg.all isNamed = true) :
    (tracing.jumpTo count transition kind args).Leads tracing.signature.name count := by
  cases args with
  | nil => exact .one (.arrive transition (.inl rfl))
  | cons target args => exact .one ((tracing.refer_leads kind count (inArgs target List.mem_cons_self)).arrive transition)

theorem jumpAsDescribed_leads (count : Nat) (transition : Transition) {args : List Expr}
    (inArgs : ∀ arg ∈ args, arg.all isNamed = true) :
    (tracing.jumpAsDescribed count transition args).Leads tracing.signature.name count := by
  cases args with
  | nil => exact .one (.arrive transition (.inl rfl))
  | cons descriptor args => exact .one ((tracing.describe_leads count (inArgs descriptor List.mem_cons_self)).arrive _)

theorem subroutine_leads (count : Nat) (transition : Transition) {machine : Expr} (migrate exit : Expr)
    (inMachine : machine.all isNamed = true) :
    (tracing.subroutine count transition machine migrate exit).Leads tracing.signature.name count := by
  have names : Role.subroutine.Names tracing.signature.name (count + (tracing.refer .migration count migrate).2.length)
      (tracing.signature.name ++ "." ++ machineName machine ++ "." ++
        toString (count + (tracing.refer .migration count migrate).2.length + 1)) :=
    ⟨machineName machine, undigited_machineName inMachine, rfl⟩
  exact .one (.inr ⟨_, by omega, by simp, names.inSlot (by decide)⟩)

theorem perform_leads (count : Nat) {transition : Transition} (plain : isPlain transition.destination = true)
    {chain : Chain} (holds : chain.Holds isNamed) :
    (tracing.perform count transition chain).Leads tracing.signature.name count := by
  have inArgs := holds.args
  have stops : isPlain stopDestination = true := by decide
  have orElse : isPlain "<ThenRepeatOrElse>" = true := by decide
  unfold perform
  cases Operation.ofName chain.name with
  | callSubroutine =>
    dsimp only
    split
    next machine migrate exit same =>
      rw [same] at inArgs
      exact tracing.subroutine_leads count transition migrate exit (inArgs machine (by simp))
    next => exact .one (.arrive transition (.inl rfl))
  | fail | stop => exact .one (.inl stops)
  | repeatOrElse => exact .one (.inl orElse)
  | replace => exact tracing.jumpTo_leads count _ .construction inArgs
  | replaceWith => exact tracing.jumpTo_leads count _ .plain inArgs
  | repeatOrJump =>
    have jump := tracing.jumpTo_leads count transition .execution inArgs
    dsimp only
    split
    · exact jump
    · exact jump.orRepeat plain
  | repeatOrJumpAsDescribed => exact (tracing.jumpAsDescribed_leads count transition inArgs).orRepeat plain
  | jumpAsDescribed => exact tracing.jumpAsDescribed_leads count transition inArgs
  | jump =>
    dsimp only
    split
    · exact .one (.inl plain)
    · exact tracing.jumpTo_leads count _ .execution inArgs

/-- What a step that is neither an initializer nor a constructor finds at an exit. -/
theorem transitionsOf_eq (kind : tracing.signature.kind ≠ .initializer ∧ tracing.signature.kind ≠ .construction)
    (count : Nat) (exit : Exit) :
    tracing.transitionsOf count exit =
      let chain := tracing.chainOf count exit.update
      let preset := tracing.defaultHandler (count + chain.2.length) exit.defaults.migration
      let found := tracing.perform (count + chain.2.length + preset.2.length)
        { operation := chain.1.waitLabel, migration := preset.1, inherits := exit.defaults.migration.isNone } chain.1
      { found with subs := chain.2 ++ preset.2 ++ found.subs } := by
  unfold transitionsOf
  dsimp only
  split
  next isInitializer => exact absurd isInitializer kind.1
  next isConstruction => exact absurd isConstruction kind.2
  next => rfl

/-- **Transitions lead to inner steps that were met with them**, or to plain names. -/
theorem transitionsOf_leads (kind : tracing.signature.kind ≠ .initializer ∧ tracing.signature.kind ≠ .construction)
    (count : Nat) {exit : Exit} (holds : exit.Holds isNamed) :
    (tracing.transitionsOf count exit).Leads tracing.signature.name count := by
  have chainHolds : (tracing.chainOf count exit.update).1.Holds isNamed := by
    cases written : exit.update with
    | chain chain =>
      have kept := holds.update
      rwa [written] at kept
    | built type => exact rfl
  rw [tracing.transitionsOf_eq kind]
  intro transition member
  refine (tracing.perform_leads _ ?_ chainHolds transition member).mono (by omega) ?_
  · rfl
  · simp only [List.length_append]
    omega

end Tracing

end StepChart
