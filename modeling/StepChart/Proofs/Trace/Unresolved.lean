import Mathlib.Data.List.Basic
import StepChart.Proofs.Naming.Destinations

/-!
# Repeats and unresolved targets

The last name of an update and its arguments say whether the step is repeated and where it is left to. `Operation.Spelled`
says how operations are spelled, `Chain.Repeats` and `Chain.MayRepeat` which updates repeat the step, and
`Chain.Unresolved` which of them have a target that cannot be found. A target that cannot be found is never taken for a
repeat (`perform_handsOver`, `repeats_and_targets`).
-/

namespace StepChart

open Syntax Text

/-! ## How operations are spelled -/

/-- The names that mean something of their own, whatever follows. -/
def reservedNames : List String :=
  ["CallSubroutine", "Error", "Errorf", "Stop", "Replace", "ReplaceWith", "ThenRepeatOrElse", "ThenRepeatOrJump"]

/-- The name asks for a descriptor. -/
def asksForDescriptor (name : String) : Bool := endsWith "Ext" name || endsWith "Step" name

namespace Operation

/-- How an operation is spelled. -/
def Spelled : Operation → String → Prop
  | .callSubroutine, name => name = "CallSubroutine"
  | .fail, name => name = "Error" ∨ name = "Errorf"
  | .stop, name => name = "Stop"
  | .replace, name => name = "Replace"
  | .replaceWith, name => name = "ReplaceWith"
  | .repeatOrElse, name => name = "ThenRepeatOrElse"
  | .repeatOrJump, name => name = "ThenRepeatOrJump"
  | .repeatOrJumpAsDescribed, name => name = "ThenRepeatOrJumpExt"
  | .jumpAsDescribed, name => name ∉ reservedNames ∧ name ≠ "ThenRepeatOrJumpExt" ∧ asksForDescriptor name = true
  | .jump, name => name ∉ reservedNames ∧ asksForDescriptor name = false

theorem spelled_ofName (name : String) : (ofName name).Spelled name := by
  unfold ofName
  split
  case h_2 => exact .inl rfl
  case h_3 => exact .inr rfl
  case h_10 =>
    split
    next asks => exact ⟨by simp_all [reservedNames], by assumption, asks⟩
    next plain => exact ⟨by simp_all [reservedNames], by simpa [asksForDescriptor] using plain⟩
  all_goals rfl

theorem ofName_eq_iff {name : String} {operation : Operation} : ofName name = operation ↔ operation.Spelled name := by
  constructor
  · rintro rfl
    exact spelled_ofName name
  · intro spelled
    cases operation with
    | fail => rcases spelled with rfl | rfl <;> rfl
    | jumpAsDescribed =>
      obtain ⟨free, other, asks⟩ := spelled
      unfold ofName
      split
      case h_9 => exact absurd rfl other
      case h_10 => exact if_pos asks
      all_goals exact absurd (by decide) free
    | jump =>
      obtain ⟨free, plain⟩ := spelled
      unfold ofName
      split
      case h_9 => exact absurd plain (by decide)
      case h_10 => exact if_neg (by simpa [asksForDescriptor] using plain)
      all_goals exact absurd (by decide) free
    | _ =>
      subst spelled
      rfl

end Operation

/-! ## Arguments that name nothing -/

namespace Syntax.Expr

/-- The expression names no step of the given kind: it is `nil`, or nothing that has a name. Where a step has no state
update to answer with, the target may be given by its address, and where a plain step is meant, by a literal. -/
def namesNothing (kind : Kind) : Expr → Bool
  | .unary _ .address operand => kind.hasStateUpdate || operand.namesNothing kind
  | .composite .. => kind != .plain
  | .func .. => false
  | expr => expr.qualifiedName == ("", "nil") || expr.qualifiedName == ("", "")

/-- The target in an entry of a descriptor. -/
def target? : Expr → Option Expr
  | .keyValue _ key value => if key.qualifiedName = ("", "Transition") then some value else none
  | _ => none

/-- The expression is a descriptor, and the last target in it, if there is any, names nothing. -/
def leadsNowhere : Expr → Bool
  | .composite _ (some type) elements =>
    type.qualifiedName.2 == "SlotStep" && (elements.filterMap target?).getLast?.all (namesNothing .execution)
  | _ => false

end Syntax.Expr

theorem dotted_eq_empty_iff {qualified : String × String} : dotted qualified = "" ↔ qualified = ("", "") := by
  obtain ⟨qualifier, name⟩ := qualified
  unfold dotted
  dsimp only
  split
  next noQualifier =>
    have isEmpty : qualifier = "" := by simpa using noQualifier
    simp [isEmpty]
  next hasQualifier =>
    have notEmpty : qualifier ≠ "" := by simpa using hasQualifier
    simp [notEmpty]

namespace Tracing

variable (tracing : Tracing)

/-- An argument has no name exactly if it names nothing. -/
theorem refer_eq_empty_iff (kind : Kind) (count : Nat) (expr : Expr) :
    (tracing.refer kind count expr).1 = "" ↔ expr.namesNothing kind = true := by
  fun_induction Tracing.refer tracing kind count expr with
  | case1 span operand updates => simp [Expr.namesNothing, updates]
  | case2 span operand noUpdate ih => simpa [Expr.namesNothing, noUpdate] using ih
  | case3 span type elements isPlain =>
    have nonempty : builtName type ≠ "" := by simp [builtName]
    exact iff_of_false nonempty (by simp [Expr.namesNothing, isPlain])
  | case4 span type elements notPlain => simp [Expr.namesNothing, notPlain]
  | case5 span params results body =>
    have nonempty : tracing.signature.name ++ "." ++ toString (count + 1) ≠ "" := by simp
    exact iff_of_false nonempty (by simp [Expr.namesNothing])
  | case6 expr noAddress noComposite noFunc =>
    rw [Expr.namesNothing]
    · split
      next isNil => simp [isNil]
      next notNil => simp [notNil, dotted_eq_empty_iff]
    · exact noAddress
    · exact noComposite
    · exact noFunc

theorem describeEntry_destination (count : Nat) (said : Description) (entry : Expr) :
    (tracing.describeEntry count said entry).destination = "" ↔
      match entry.target? with
      | some target => target.namesNothing .execution = true
      | none => said.destination = "" := by
  fun_cases Tracing.describeEntry tracing count said entry with
  | case1 span key value isTarget destination added met =>
    have named := tracing.refer_eq_empty_iff .execution (count + said.subs.length) value
    rw [met] at named
    simpa [Expr.target?, isTarget] using named
  | case2 span key value notTarget _ migration added met => simp [Expr.target?, notTarget]
  | case3 span key value notTarget _ => simp [Expr.target?, notTarget]
  | case4 entry noEntry =>
    rw [Expr.target?]
    exact noEntry

theorem describeEntries_destination (count : Nat) (said : Description) (entries : List Expr) :
    (entries.foldl (tracing.describeEntry count) said).destination = "" ↔
      match (entries.filterMap Expr.target?).getLast? with
      | some target => target.namesNothing .execution = true
      | none => said.destination = "" := by
  induction entries generalizing said with
  | nil => simp
  | cons entry entries ih =>
    rw [List.foldl_cons, ih, List.filterMap_cons]
    have first := tracing.describeEntry_destination count said entry
    cases isTarget : entry.target? with
    | none =>
      rw [isTarget] at first
      simp only [first]
    | some target =>
      rw [isTarget] at first
      dsimp only
      rw [List.getLast?_cons]
      cases (entries.filterMap Expr.target?).getLast? with
      | none => exact first
      | some last => rfl

/-- A descriptor has no destination exactly if it leads nowhere. -/
theorem describe_eq_empty_iff (count : Nat) (expr : Expr) :
    (tracing.describe count expr).destination = "" ↔ expr.leadsNowhere = true := by
  unfold describe
  split
  next span type elements =>
    split
    next isDescriptor =>
      rw [describeEntries_destination, Expr.leadsNowhere, isDescriptor]
      cases (elements.filterMap Expr.target?).getLast? <;> simp
    next other => simp [Expr.leadsNowhere, other]
  next noComposite =>
    rw [Expr.leadsNowhere]
    · simp
    · exact noComposite

end Tracing

/-! ## Marks -/

/-- The destinations that stand for no step. -/
def marks : List String := [stopDestination, unknownDestination]

/-- No name in the expression is spelled like a mark. -/
def isUnmarked : Expr → Bool
  | .ident _ name => name ∉ marks
  | .selector _ _ field => field ∉ marks
  | _ => true

/-- A text is no mark if something holds of it that holds of no mark. -/
theorem not_mem_marks (test : List Char → Bool) (differ : marks.all (fun mark => !test mark.toList) = true)
    {text : String} (holds : test text.toList = true) : text ∉ marks := by
  intro isMark
  simpa [holds] using List.all_eq_true.1 differ text isMark

theorem not_mem_marks_of_dot {name : String} (dot : '.' ∈ name.toList) : name ∉ marks :=
  not_mem_marks (·.contains '.') (by decide) (by simpa using dot)

theorem builtName_not_mem_marks (type : Option Expr) : builtName type ∉ marks :=
  not_mem_marks (·.getLast? == some '\x7d') (by decide) (by simp [getLast?_builtName])

theorem dotted_not_mem_marks {expr : Expr} (every : expr.all isUnmarked = true) : dotted expr.qualifiedName ∉ marks := by
  fun_cases Expr.qualifiedName expr with
  | case1 outer inner qualifier name =>
    unfold dotted
    split
    · exact of_decide_eq_true (Expr.all_self every)
    · exact not_mem_marks_of_dot (by simp)
  | case2 | case3 => exact of_decide_eq_true (Expr.all_self every)
  | case4 => decide

namespace Tracing

variable (tracing : Tracing)

theorem refer_not_mem_marks (kind : Kind) (count : Nat) {expr : Expr} (every : expr.all isUnmarked = true) :
    (tracing.refer kind count expr).1 ∉ marks := by
  fun_induction Tracing.refer tracing kind count expr with
  | case1 => decide
  | case2 span operand _ ih => exact ih (Expr.all_unary every)
  | case3 span type elements => exact builtName_not_mem_marks type
  | case4 => decide
  | case5 span params results body name => exact not_mem_marks_of_dot (by simp [name])
  | case6 expr =>
    split
    · decide
    · exact dotted_not_mem_marks every

theorem describeEntry_not_mem_marks (count : Nat) {said : Description} {entry : Expr}
    (every : entry.all isUnmarked = true) (before : said.destination ∉ marks) :
    (tracing.describeEntry count said entry).destination ∉ marks := by
  fun_cases Tracing.describeEntry tracing count said entry with
  | case1 span key value _ destination added met =>
    have unmarked := tracing.refer_not_mem_marks .execution (count + said.subs.length) (Expr.all_keyValue every).2
    rwa [met] at unmarked
  | case2 | case3 | case4 => exact before

theorem describe_not_mem_marks (count : Nat) {expr : Expr} (every : expr.all isUnmarked = true) :
    (tracing.describe count expr).destination ∉ marks := by
  have entries : ∀ (entries : List Expr) (said : Description), exprsAll isUnmarked entries = true →
      said.destination ∉ marks → (entries.foldl (tracing.describeEntry count) said).destination ∉ marks := by
    intro entries
    induction entries with
    | nil => exact fun said _ before => before
    | cons entry entries ih =>
      intro said every before
      obtain ⟨inEntry, inEntries⟩ := Bool.and_eq_true_iff.1 every
      exact ih _ inEntries (tracing.describeEntry_not_mem_marks count inEntry before)
  have dynamic : "DYNAMIC " ++ expr.qualifiedName.2 ∉ marks :=
    not_mem_marks (·.head? == some 'D') (by decide) (by simp)
  unfold describe
  split
  · split
    · exact entries _ _ (Expr.all_composite every).2 (by decide)
    · exact dynamic
  · exact dynamic

end Tracing

/-! ## What updates ask for -/

namespace Chain

/-- The update does nothing but repeat the step. -/
structure Repeats (chain : Chain) : Prop where
  noArgs : chain.args = []
  free : chain.name ∉ reservedNames
  plain : asksForDescriptor chain.name = false

/-- The update repeats the step or leads on. -/
def MayRepeat (chain : Chain) : Prop :=
  chain.name = "ThenRepeatOrJump" ∧ chain.args ≠ [] ∨ chain.name = "ThenRepeatOrJumpExt"

/-- The update ends the state machine. -/
def Ends (chain : Chain) : Prop := chain.name = "Error" ∨ chain.name = "Errorf" ∨ chain.name = "Stop"

/-- The target of the update cannot be found. -/
inductive Unresolved (chain : Chain) : Prop
  | callSubroutine (named : chain.name = "CallSubroutine") (notThree : chain.args.length ≠ 3)
  | replace (named : chain.name = "Replace") (nothing : chain.args.head?.all (Expr.namesNothing .construction) = true)
  | replaceWith (named : chain.name = "ReplaceWith") (nothing : chain.args.head?.all (Expr.namesNothing .plain) = true)
  | repeatOrJump (named : chain.name = "ThenRepeatOrJump")
      (nothing : chain.args.head?.all (Expr.namesNothing .execution) = true)
  | described (free : chain.name ∉ reservedNames) (asks : asksForDescriptor chain.name = true)
      (nowhere : chain.args.head?.all Expr.leadsNowhere = true)
  | jump (free : chain.name ∉ reservedNames) (plain : asksForDescriptor chain.name = false)
      (nothing : chain.args.head?.any (Expr.namesNothing .execution) = true)

theorem repeats_iff {chain : Chain} : chain.Repeats ↔ Operation.ofName chain.name = .jump ∧ chain.args = [] := by
  rw [Operation.ofName_eq_iff]
  exact ⟨fun ⟨noArgs, free, plain⟩ => ⟨⟨free, plain⟩, noArgs⟩, fun ⟨⟨free, plain⟩, noArgs⟩ => ⟨noArgs, free, plain⟩⟩

theorem mayRepeat_iff {chain : Chain} : chain.MayRepeat ↔
    Operation.ofName chain.name = .repeatOrJump ∧ chain.args ≠ [] ∨
      Operation.ofName chain.name = .repeatOrJumpAsDescribed := by
  rw [Operation.ofName_eq_iff, Operation.ofName_eq_iff]
  rfl

theorem ends_iff {chain : Chain} :
    chain.Ends ↔ Operation.ofName chain.name = .fail ∨ Operation.ofName chain.name = .stop := by
  rw [Operation.ofName_eq_iff, Operation.ofName_eq_iff]
  exact or_assoc.symm

end Chain

/-- The operation is left without a target by these arguments. -/
def Operation.isOpen : Operation → List Expr → Bool
  | .callSubroutine, args => args.length != 3
  | .replace, args => args.head?.all (Expr.namesNothing .construction)
  | .replaceWith, args => args.head?.all (Expr.namesNothing .plain)
  | .repeatOrJump, args => args.head?.all (Expr.namesNothing .execution)
  | .repeatOrJumpAsDescribed, args | .jumpAsDescribed, args => args.head?.all Expr.leadsNowhere
  | .jump, args => args.head?.any (Expr.namesNothing .execution)
  | .fail, _ | .stop, _ | .repeatOrElse, _ => false

theorem Chain.unresolved_iff {chain : Chain} :
    chain.Unresolved ↔ (Operation.ofName chain.name).isOpen chain.args = true := by
  constructor
  · intro unresolved
    cases unresolved with
    | callSubroutine named notThree =>
      rw [named]
      exact bne_iff_ne.2 notThree
    | replace named nothing | replaceWith named nothing | repeatOrJump named nothing =>
      rw [named]
      exact nothing
    | described free asks nowhere =>
      by_cases mayRepeat : chain.name = "ThenRepeatOrJumpExt"
      · rw [mayRepeat]
        exact nowhere
      · rw [Operation.ofName_eq_iff.2 (show Operation.jumpAsDescribed.Spelled chain.name from ⟨free, mayRepeat, asks⟩)]
        exact nowhere
    | jump free plain nothing =>
      rw [Operation.ofName_eq_iff.2 (show Operation.jump.Spelled chain.name from ⟨free, plain⟩)]
      exact nothing
  · intro isOpen
    have spelled := Operation.spelled_ofName chain.name
    generalize Operation.ofName chain.name = operation at isOpen spelled
    cases operation with
    | fail | stop | repeatOrElse => cases isOpen
    | callSubroutine => exact .callSubroutine spelled (bne_iff_ne.1 isOpen)
    | replace => exact .replace spelled isOpen
    | replaceWith => exact .replaceWith spelled isOpen
    | repeatOrJump => exact .repeatOrJump spelled isOpen
    | repeatOrJumpAsDescribed =>
      have named : chain.name = "ThenRepeatOrJumpExt" := spelled
      refine .described ?_ ?_ isOpen
      · rw [named]
        decide
      · rw [named]
        decide
    | jumpAsDescribed => exact .described spelled.1 spelled.2.2 isOpen
    | jump => exact .jump spelled.1 spelled.2 isOpen

/-! ## What updates hand over -/

/-- Where the transition that leads on arrives: at the end, at an unknown step, or at a step with a name. -/
inductive Chain.Arrives (chain : Chain) (destination : String) : Prop
  | stop (ends : chain.Ends) (isStop : destination = stopDestination)
  | unknown (unresolved : chain.Unresolved) (isUnknown : destination = unknownDestination)
  | named (goesOn : ¬ chain.Ends) (resolved : ¬ chain.Unresolved) (nonempty : destination ≠ "")
      (noMark : (∀ arg ∈ chain.args, arg.all isUnmarked = true) → destination ∉ marks)

namespace Chain.Arrives

variable {chain : Chain} {destination : String}

theorem ne_empty (arrives : chain.Arrives destination) : destination ≠ "" := by
  rcases arrives with ⟨-, rfl⟩ | ⟨-, rfl⟩ | ⟨-, -, nonempty, -⟩
  · decide
  · decide
  · exact nonempty

theorem leadsOn {onward : Transition} (arrives : chain.Arrives onward.destination) : onward.isRepeat = false := by
  simpa [Transition.isRepeat] using arrives.ne_empty

/-- An update that ends the state machine has no target that could be missing. -/
theorem not_unresolved_of_ends (ends : chain.Ends) : ¬ chain.Unresolved := by
  rw [Chain.unresolved_iff]
  rcases Chain.ends_iff.1 ends with fails | stops
  · rw [fails]
    exact Bool.false_ne_true
  · rw [stops]
    exact Bool.false_ne_true

theorem eq_stop_iff (arrives : chain.Arrives destination) (unmarked : ∀ arg ∈ chain.args, arg.all isUnmarked = true) :
    destination = stopDestination ↔ chain.Ends := by
  rcases arrives with ⟨ends, rfl⟩ | ⟨unresolved, rfl⟩ | ⟨goesOn, -, -, noMark⟩
  · exact iff_of_true rfl ends
  · exact iff_of_false (by decide) fun ends => not_unresolved_of_ends ends unresolved
  · refine iff_of_false ?_ goesOn
    rintro rfl
    exact noMark unmarked (by decide)

theorem eq_unknown_iff (arrives : chain.Arrives destination) (unmarked : ∀ arg ∈ chain.args, arg.all isUnmarked = true) :
    destination = unknownDestination ↔ chain.Unresolved := by
  rcases arrives with ⟨ends, rfl⟩ | ⟨unresolved, rfl⟩ | ⟨-, resolved, -, noMark⟩
  · exact iff_of_false (by decide) (not_unresolved_of_ends ends)
  · exact iff_of_true rfl unresolved
  · refine iff_of_false ?_ resolved
    rintro rfl
    exact noMark unmarked (by decide)

/-- A target that may be missing: without a name it is unknown. -/
theorem arrive (transition : Transition) (goesOn : ¬ chain.Ends) (missing : chain.Unresolved ↔ destination = "")
    (noMark : (∀ arg ∈ chain.args, arg.all isUnmarked = true) → destination ∉ marks) :
    chain.Arrives (Tracing.arrive transition destination).destination := by
  unfold Tracing.arrive
  dsimp only
  split
  next noName => exact .unknown (missing.2 (by simpa using noName)) rfl
  next hasName =>
    have nonempty : destination ≠ "" := by simpa using hasName
    exact .named goesOn (mt missing.1 nonempty) nonempty noMark

end Chain.Arrives

/-- The transitions that an update hands over: a repeat, a transition that leads on, or both. -/
inductive Chain.HandsOver (chain : Chain) : List Transition → Prop
  | again {again : Transition} (repeats : chain.Repeats) (isRepeat : again.isRepeat = true) : HandsOver chain [again]
  | onward {onward : Transition} (never : ¬ chain.Repeats ∧ ¬ chain.MayRepeat) (arrives : chain.Arrives onward.destination) :
      HandsOver chain [onward]
  | either {again onward : Transition} (mayRepeat : chain.MayRepeat) (notOnly : ¬ chain.Repeats)
      (isRepeat : again.isRepeat = true) (arrives : chain.Arrives onward.destination) : HandsOver chain [again, onward]

namespace Tracing

variable (tracing : Tracing) {chain : Chain}

theorem jumpTo_arrives (count : Nat) (transition : Transition) (kind : Kind) (goesOn : ¬ chain.Ends)
    (missing : chain.Unresolved ↔ chain.args.head?.all (Expr.namesNothing kind) = true) :
    ∃ onward, (tracing.jumpTo count transition kind chain.args).transitions = [onward] ∧
      chain.Arrives onward.destination := by
  cases args : chain.args with
  | nil =>
    refine ⟨_, rfl, .arrive transition goesOn ?_ fun _ => by decide⟩
    rw [missing, args]
    simp
  | cons target args =>
    refine ⟨_, rfl, .arrive transition goesOn ?_ fun unmarked => ?_⟩
    · rw [missing, args]
      exact (tracing.refer_eq_empty_iff kind count target).symm
    · exact tracing.refer_not_mem_marks kind count (unmarked target (by simp [args]))

theorem jumpAsDescribed_arrives (count : Nat) (transition : Transition) (goesOn : ¬ chain.Ends)
    (missing : chain.Unresolved ↔ chain.args.head?.all Expr.leadsNowhere = true) :
    ∃ onward, (tracing.jumpAsDescribed count transition chain.args).transitions = [onward] ∧
      chain.Arrives onward.destination := by
  cases args : chain.args with
  | nil =>
    refine ⟨_, rfl, .arrive transition goesOn ?_ fun _ => by decide⟩
    rw [missing, args]
    simp
  | cons descriptor args =>
    refine ⟨_, rfl, .arrive _ goesOn ?_ fun unmarked => ?_⟩
    · rw [missing, args]
      exact (tracing.describe_eq_empty_iff count descriptor).symm
    · exact tracing.describe_not_mem_marks count (unmarked descriptor (by simp [args]))

/-- **What an update hands over**, by the operation that its last name stands for. -/
theorem perform_handsOver (count : Nat) {transition : Transition} (isRepeat : transition.isRepeat = true) :
    chain.HandsOver (tracing.perform count transition chain).transitions := by
  have repeats := @Chain.repeats_iff chain
  have mayRepeat := @Chain.mayRepeat_iff chain
  have ends := @Chain.ends_iff chain
  have missing := @Chain.unresolved_iff chain
  unfold perform
  generalize Operation.ofName chain.name = operation at repeats mayRepeat ends missing ⊢
  cases operation with
  | callSubroutine =>
    have never : ¬ chain.Repeats ∧ ¬ chain.MayRepeat := by simp [repeats, mayRepeat]
    have goesOn : ¬ chain.Ends := by simp [ends]
    dsimp only
    split
    next machine migrate exit args =>
      refine .onward never (.named goesOn ?_ (by simp) fun _ => not_mem_marks_of_dot (by simp))
      rw [missing, args]
      exact Bool.false_ne_true
    next others =>
      refine .onward never (.unknown (missing.2 (bne_iff_ne.2 fun three => ?_)) rfl)
      obtain ⟨machine, migrate, exit, args⟩ := List.length_eq_three.1 three
      exact others machine migrate exit args
  | fail | stop => exact .onward (by simp [repeats, mayRepeat]) (.stop (by simp [ends]) rfl)
  | replace | replaceWith =>
    obtain ⟨onward, found, arrives⟩ := tracing.jumpTo_arrives count
      { transition with operation := "Replace", inherits := false } _ (by simp [ends]) missing
    dsimp only
    rw [found]
    exact .onward (by simp [repeats, mayRepeat]) arrives
  | repeatOrElse =>
    have nonempty : "<ThenRepeatOrElse>" ≠ "" := by decide
    have noMark : "<ThenRepeatOrElse>" ∉ marks := by decide
    refine .onward (by simp [repeats, mayRepeat]) (.named (by simp [ends]) ?_ nonempty fun _ => noMark)
    rw [missing]
    exact Bool.false_ne_true
  | repeatOrJump =>
    obtain ⟨onward, found, arrives⟩ := tracing.jumpTo_arrives count transition .execution (by simp [ends]) missing
    dsimp only
    split
    next noArgs =>
      rw [found]
      exact .onward (by simpa [repeats, mayRepeat] using noArgs) arrives
    next hasArgs =>
      rw [orRepeat, found]
      exact .either (by simpa [mayRepeat] using hasArgs) (by simp [repeats]) isRepeat arrives
  | repeatOrJumpAsDescribed =>
    obtain ⟨onward, found, arrives⟩ := tracing.jumpAsDescribed_arrives count transition (by simp [ends]) missing
    rw [orRepeat, found]
    exact .either (by simp [mayRepeat]) (by simp [repeats]) isRepeat arrives
  | jumpAsDescribed =>
    obtain ⟨onward, found, arrives⟩ := tracing.jumpAsDescribed_arrives count transition (by simp [ends]) missing
    dsimp only
    rw [found]
    exact .onward (by simp [repeats, mayRepeat]) arrives
  | jump =>
    dsimp only
    split
    next noArgs => exact .again (by simpa [repeats] using noArgs) isRepeat
    next hasArgs =>
      -- with an argument, a missing target and a first argument that names nothing are the same
      have first : chain.Unresolved ↔ chain.args.head?.all (Expr.namesNothing .execution) = true := by
        rw [missing]
        cases args : chain.args with
        | nil => simp [args] at hasArgs
        | cons target args => rfl
      obtain ⟨onward, found, arrives⟩ := tracing.jumpTo_arrives count { transition with operation := _ } .execution
        (by simp [ends]) first
      rw [found]
      exact .onward (by simpa [repeats, mayRepeat] using hasArgs) arrives

end Tracing

namespace Chain.HandsOver

variable {chain : Chain} {transitions : List Transition}

theorem exists_repeat_iff (hands : chain.HandsOver transitions) :
    (∃ transition ∈ transitions, transition.isRepeat = true) ↔ chain.MayRepeat ∨ chain.Repeats := by
  rcases hands with
    @⟨again, repeats, isRepeat⟩ | @⟨onward, never, arrives⟩ | @⟨again, onward, mayRepeat, notOnly, isRepeat, arrives⟩
  · exact iff_of_true ⟨again, by simp, isRepeat⟩ (.inr repeats)
  · exact iff_of_false (by simp [arrives.leadsOn]) (by simp [never])
  · exact iff_of_true ⟨again, by simp, isRepeat⟩ (.inl mayRepeat)

/-- Unless the update does nothing but repeat the step, one transition leads on. -/
theorem exists_onward (hands : chain.HandsOver transitions) (notOnly : ¬ chain.Repeats) :
    ∃ onward, transitions.filter (!·.isRepeat) = [onward] ∧ chain.Arrives onward.destination := by
  rcases hands with ⟨repeats, -⟩ | @⟨onward, -, arrives⟩ | @⟨again, onward, -, -, isRepeat, arrives⟩
  · exact absurd repeats notOnly
  · exact ⟨onward, by simp [arrives.leadsOn], arrives⟩
  · exact ⟨onward, by simp [isRepeat, arrives.leadsOn], arrives⟩

theorem filter_of_repeats (hands : chain.HandsOver transitions) (repeats : chain.Repeats) :
    transitions.filter (!·.isRepeat) = [] := by
  rcases hands with ⟨-, isRepeat⟩ | ⟨never, -⟩ | ⟨-, notOnly, -, -⟩
  · simp [isRepeat]
  · exact absurd repeats never.1
  · exact absurd repeats notOnly

end Chain.HandsOver

/-- What a return hands over, in a step that is neither an initializer nor a constructor. -/
theorem Tracing.transitionsOf_handsOver {tracing : Tracing}
    (kind : tracing.signature.kind ≠ .initializer ∧ tracing.signature.kind ≠ .construction) (count : Nat) (chain : Chain)
    (guard : Option Guard) (defaults : Defaults) :
    chain.HandsOver (tracing.transitionsOf count ⟨.chain chain, guard, defaults⟩).transitions := by
  rw [tracing.transitionsOf_eq kind]
  exact tracing.perform_handsOver _ rfl

/-- **A target that cannot be found is never a repeat.** In a step that is neither an initializer nor a constructor, an
update hands over a repeat if its name says so, and in all cases but that of a mere repeat one transition that leads on.
Where names are not spelled like marks, that transition ends the state machine for the names that say so, and it leads to
the unknown step if the target cannot be found. -/
theorem repeats_and_targets (tracing : Tracing)
    (kind : tracing.signature.kind ≠ .initializer ∧ tracing.signature.kind ≠ .construction) (count : Nat) (chain : Chain)
    (guard : Option Guard) (defaults : Defaults) :
    let found := (tracing.transitionsOf count ⟨.chain chain, guard, defaults⟩).transitions
    ((∃ transition ∈ found, transition.isRepeat = true) ↔ chain.MayRepeat ∨ chain.Repeats) ∧
    (chain.Repeats → found.filter (!·.isRepeat) = []) ∧
    (¬ chain.Repeats → ∃ onward, found.filter (!·.isRepeat) = [onward] ∧
      ((∀ arg ∈ chain.args, arg.all isUnmarked = true) →
        (onward.destination = stopDestination ↔ chain.Ends) ∧
        (onward.destination = unknownDestination ↔ chain.Unresolved))) ∧
    ∀ kind number expr, (tracing.refer kind number expr).1 = "" ↔ expr.namesNothing kind = true := by
  intro found
  have hands : chain.HandsOver found := Tracing.transitionsOf_handsOver kind count chain guard defaults
  refine ⟨hands.exists_repeat_iff, hands.filter_of_repeats, fun notOnly => ?_, tracing.refer_eq_empty_iff⟩
  obtain ⟨onward, only, arrives⟩ := hands.exists_onward notOnly
  exact ⟨onward, only, fun unmarked => ⟨arrives.eq_stop_iff unmarked, arrives.eq_unknown_iff unmarked⟩⟩

/-- A jump to `nil` leads to the unknown step, and is no repeat. -/
theorem repeats_and_targets_nil :
    let tracing : Tracing := ⟨"smachine", { name := "run", kind := .execution, contextArg := "ctx" }, trace "smachine"⟩
    let chain : Chain := .child (.context none) "Jump" (some [.ident default "nil"])
    let found := (tracing.transitionsOf 0 ⟨.chain chain, none, {}⟩).transitions
    (∀ transition ∈ found, transition.isRepeat = false) ∧
      ∃ onward ∈ found, onward.destination = unknownDestination := by
  intro tracing chain found
  obtain ⟨again, -, leadsOn, -⟩ := repeats_and_targets tracing (by decide) 0 chain none {}
  have free : chain.name ∉ reservedNames := by decide
  have plain : asksForDescriptor chain.name = false := by decide
  have notOnly : ¬ chain.Repeats := fun repeats => List.cons_ne_nil _ _ repeats.noArgs
  have never : ¬ (chain.MayRepeat ∨ chain.Repeats) := by
    rintro ((⟨named, -⟩ | named) | repeats)
    · exact absurd named (by decide)
    · exact absurd named (by decide)
    · exact notOnly repeats
  refine ⟨fun transition member => ?_, ?_⟩
  · exact eq_false_of_ne_true fun isRepeat => never (again.1 ⟨transition, member, isRepeat⟩)
  · obtain ⟨onward, only, destinations⟩ := leadsOn notOnly
    refine ⟨onward, (List.mem_filter.1 (only ▸ List.mem_singleton_self onward)).1, ?_⟩
    exact (destinations (by decide)).2.2 (.jump free plain rfl)

end StepChart
