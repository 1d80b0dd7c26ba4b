import Mathlib.Data.List.Induction
import StepChart.Proofs.Step.Repeats
import StepChart.Proofs.Text.Pieces

/-!
# The operations of the repeat

The operations of the repeats of a step are joined in one text, and an operation is left out if its characters stand in
the text already. So none is named twice, but one is left out also if it is only a part of the text: `WaitAny` after
`WaitAnyUntil`. `keep` is the same choice on lists; a run over it names some of the distinct operations, in order,
while the text of all of them is shown (`shown_foldl_keep`), and it names all of them exactly if each one is new in
writing where it is given first (`foldl_keep_eq_iff`).
-/

namespace StepChart

open Text

/-! ## Distinct elements -/

theorem eraseDups_concat {α : Type} [BEq α] [LawfulBEq α] [DecidableEq α] (given : List α) (more : α) :
    (given ++ [more]).eraseDups = if more ∈ given then given.eraseDups else given.eraseDups ++ [more] := by
  rw [List.eraseDups_append, List.cons_removeAll]
  split <;> simp_all [List.eraseDups_cons]

/-! ## What is named -/

namespace Operations

/-- The operations in one text. -/
def written (operations : List String) : String := ", ".intercalate operations

/-- An operation is named after others, unless its characters stand in their text. -/
def keep (named : List String) (operation : String) : List String :=
  if occursIn operation.toList (written named).toList then named else named ++ [operation]

/-- Each operation is new in the text of those before it, where it is given first. -/
def EachNew (given : List String) : Prop :=
  ∀ before operation after, given = before ++ operation :: after → operation ∉ before →
    ¬ operation.toList <:+: (written before.eraseDups).toList

theorem eachNew_concat_iff {given : List String} {more : String} :
    EachNew (given ++ [more]) ↔
      EachNew given ∧ (more ∉ given → ¬ more.toList <:+: (written given.eraseDups).toList) := by
  constructor
  · intro eachNew
    refine ⟨fun before operation after same => ?_, eachNew given more [] rfl⟩
    exact eachNew before operation (after ++ [more]) (by rw [same, List.append_assoc, List.cons_append])
  · rintro ⟨eachNew, new⟩ before operation after same
    rcases List.eq_nil_or_concat' after with rfl | ⟨front, last, rfl⟩
    · obtain ⟨rfl, last⟩ := List.append_inj' same rfl
      obtain ⟨rfl, -⟩ := List.cons.inj last
      exact new
    · rw [← List.cons_append, ← List.append_assoc] at same
      exact eachNew before operation front (List.append_inj' same rfl).1

theorem written_concat {named : List String} (some : named ≠ []) (more : String) :
    written (named ++ [more]) = written named ++ ", " ++ more :=
  intercalate_concat ", " some more

theorem written_isInfix_concat (named : List String) (more : String) :
    (written named).toList <:+: (written (named ++ [more])).toList ∧
      more.toList <:+: (written (named ++ [more])).toList := by
  by_cases some : named = []
  · subst some
    exact ⟨List.nil_infix, List.infix_rfl⟩
  · rw [written_concat some, String.toList_append, String.toList_append, List.append_assoc]
    refine ⟨(List.prefix_append _ _).isInfix, ?_⟩
    rw [← List.append_assoc]
    exact (List.suffix_append _ _).isInfix

/-- Every operation is shown in the text of those that are named. -/
def Shown (given named : List String) : Prop :=
  ∀ operation ∈ given, operation.toList <:+: (written named).toList

/-- One more operation is shown, whether it is named or not. -/
theorem Shown.keep {given named : List String} (shown : Shown given named) (more : String) :
    Shown (given ++ [more]) (keep named more) := by
  unfold Operations.keep
  obtain ⟨earlier, last⟩ := written_isInfix_concat named more
  split
  · next stands => exact List.forall_mem_append.2 ⟨shown, List.forall_mem_singleton.2 (occursIn_iff.1 stands)⟩
  · exact List.forall_mem_append.2
      ⟨fun operation member => (shown operation member).trans earlier, List.forall_mem_singleton.2 last⟩

theorem shown_foldl_keep (given : List String) : Shown given (given.foldl keep []) := by
  induction given using List.reverseRecOn with
  | nil => exact List.forall_mem_nil _
  | append_singleton given more ih =>
    rw [List.foldl_concat]
    exact ih.keep more

/-- What is named are distinct operations, in the order in which they are given. -/
theorem foldl_keep_sublist (given : List String) : (given.foldl keep []).Sublist given.eraseDups := by
  induction given using List.reverseRecOn with
  | nil => exact List.Sublist.refl []
  | append_singleton given more ih =>
    have earlier : given.eraseDups.Sublist (given ++ [more]).eraseDups := by
      rw [List.eraseDups_append]
      exact List.sublist_append_left _ _
    rw [List.foldl_concat, keep]
    split
    · exact ih.trans earlier
    · next new =>
      -- What was given before is shown, so an operation that is added was not.
      have fresh : more ∉ given := fun member => new (occursIn_iff.2 (shown_foldl_keep given more member))
      rw [eraseDups_concat, if_neg fresh]
      exact ih.append (List.Sublist.refl [more])

/-- All operations are named if each one is new in writing where it is given first, and only then. -/
theorem foldl_keep_eq_iff (given : List String) : given.foldl keep [] = given.eraseDups ↔ EachNew given := by
  induction given using List.reverseRecOn with
  | nil =>
    refine iff_of_true rfl fun before operation after same => ?_
    simp at same
  | append_singleton given more ih =>
    rw [List.foldl_concat, keep, eachNew_concat_iff, ← ih, eraseDups_concat]
    by_cases member : more ∈ given
    · have stands := occursIn_iff.2 (shown_foldl_keep given more member)
      rw [if_pos stands, if_pos member]
      exact (and_iff_left fun fresh => absurd member fresh).symm
    · rw [if_neg member]
      constructor
      · intro same
        split at same
        · -- What is named grew by nothing, so it is not longer than what was distinct before.
          have atMost := (foldl_keep_sublist given).length_le
          rw [same, List.length_append, List.length_singleton] at atMost
          omega
        · next new =>
          have before := List.append_cancel_right same
          rw [occursIn_iff, before] at new
          exact ⟨before, fun _ => new⟩
      · rintro ⟨same, new⟩
        rw [same, if_neg (fun stands => new member (occursIn_iff.1 stands))]

end Operations

open Operations

/-! ## Text of the repeat -/

/-- An operation more in the text is one more that is kept. -/
theorem joinOperations_written {named : List String} (filled : ∀ operation ∈ named, operation ≠ "") {more : String}
    (some : more ≠ "") : Transition.joinOperations (written named) more = written (keep named more) := by
  unfold Transition.joinOperations keep
  rw [if_neg (by simpa using some)]
  by_cases first : named = []
  · subst first
    have new : ¬ occursIn more.toList (written []).toList = true := by simp [written, occursIn, some]
    have none : (written []).isEmpty = true := rfl
    rw [if_pos none, if_neg new]
    rfl
  · have others : written named ≠ "" := intercalate_ne_empty ", " first filled
    rw [if_neg (by simpa using others), apply_ite written, written_concat first]

theorem foldl_joinOperations {named given : List String} (filled : ∀ operation ∈ named, operation ≠ "") :
    given.foldl Transition.joinOperations (written named) =
      written ((given.filter (!·.isEmpty)).foldl keep named) := by
  induction given generalizing named with
  | nil => rfl
  | cons more given ih =>
    by_cases some : more = ""
    · subst some
      exact ih filled
    · have kept : (more :: given).filter (!·.isEmpty) = more :: given.filter (!·.isEmpty) :=
        List.filter_cons_of_pos (by simpa using some)
      have filledMore : ∀ operation ∈ keep named more, operation ≠ "" := by
        unfold keep
        split
        · exact filled
        · exact List.forall_mem_append.2 ⟨filled, List.forall_mem_singleton.2 some⟩
      rw [kept, List.foldl_cons, List.foldl_cons, joinOperations_written filled some]
      exact ih filledMore

theorem operation_foldAll (first : Transition) {after : List (Nat × Transition)}
    (all : ∀ call ∈ after, call.2.isRepeat = true) :
    (first.foldAll after).operation =
      (first.operation :: after.map (·.2.operation)).foldl Transition.joinOperations "" := by
  have start : Transition.joinOperations "" first.operation = first.operation := by
    unfold Transition.joinOperations
    split <;> simp_all
  rw [Transition.foldAll, List.filter_eq_self.2 all, List.foldl_cons, start, List.foldl_map]
  exact (List.foldl_hom Transition.operation fun _ _ => rfl).symm

/-- **The operations that the repeat names.** Of repeats with operations that do not hold the separator, the operation
of the one transition that is left is a list of distinct operations among theirs, in the order in which these are given
first. The text of each operation stands in it. It lists all of them if and only if the text of none, where it is given
first, is part of the text of those before it. -/
theorem operations_listed (signature : Signature) {calls : List (Nat × Transition)} (given : calls ≠ [])
    (all : ∀ call ∈ calls, call.2.isRepeat = true) (apart : ∀ call ∈ calls, Apart call.2.operation.toList) :
    let step := Step.addTransitions { signature } calls
    let operations := (calls.map (·.2.operation)).filter (!·.isEmpty)
    ∃ merged, step.transitions = [merged] ∧
      (pieces merged.operation).Sublist operations.eraseDups ∧
      (∀ operation ∈ operations, operation.toList <:+: merged.operation.toList) ∧
      (pieces merged.operation = operations.eraseDups ↔
        ∀ before operation after, operations = before ++ operation :: after → operation ∉ before →
          ¬ operation.toList <:+: (", ".intercalate before.eraseDups).toList) := by
  intro step operations
  obtain ⟨⟨limit, first⟩, after, rfl⟩ := List.exists_cons_of_ne_nil given
  have collected : step.Collected _ := Step.collected_addTransitions rfl rfl _
  have text : (first.foldAll after).operation = written (operations.foldl keep []) := by
    rw [operation_foldAll first (List.forall_mem_cons.1 all).2]
    exact foldl_joinOperations (List.forall_mem_nil _)
  have sublist := foldl_keep_sublist operations
  have listed : pieces (first.foldAll after).operation = operations.foldl keep [] := by
    rw [text]
    refine pieces_intercalate (fun operation member => ?_) (fun operation member => ?_)
    · have isOperation := List.mem_eraseDups.1 (sublist.subset member)
      simpa using (List.mem_filter.1 isOperation).2
    · have isOperation := List.mem_of_mem_filter (List.mem_eraseDups.1 (sublist.subset member))
      obtain ⟨call, isCall, rfl⟩ := List.mem_map.1 isOperation
      exact apart call isCall
  refine ⟨first.foldAll after, collected.of_repeats all, ?_, ?_, ?_⟩
  · rwa [listed]
  · rw [text]
    exact shown_foldl_keep operations
  · rw [listed]
    exact foldl_keep_eq_iff operations

/-- Of four repeats, one of them without an operation, a longer name after its part is listed, and the part once. -/
theorem operations_listed_longer :
    let calls : List (Nat × Transition) :=
      [(40, { operation := "WaitAny" }), (40, {}), (10, { operation := "WaitAnyUntil" }),
        (40, { operation := "WaitAny" })]
    calls ≠ [] ∧ (∀ call ∈ calls, call.2.isRepeat = true) ∧ (∀ call ∈ calls, Apart call.2.operation.toList) ∧
      ∃ merged, (Step.addTransitions { signature := {} } calls).transitions = [merged] ∧
        pieces merged.operation = ["WaitAny", "WaitAnyUntil"] := by
  intro calls
  have given : calls ≠ [] := List.cons_ne_nil _ _
  have all : ∀ call ∈ calls, call.2.isRepeat = true := by decide +kernel
  have apart : ∀ call ∈ calls, Apart call.2.operation.toList := by decide +kernel
  have eachNew : EachNew ["WaitAny", "WaitAnyUntil", "WaitAny"] := (foldl_keep_eq_iff _).1 (by decide +kernel)
  obtain ⟨merged, only, -, -, complete⟩ := operations_listed {} given all apart
  exact ⟨given, all, apart, merged, only, complete.2 eachNew⟩

/-- An operation that is part of a longer one before it is not listed. -/
theorem part_of_operation_not_listed : ¬ ∀ (signature : Signature) (calls : List (Nat × Transition)),
    (∀ call ∈ calls, call.2.isRepeat = true) → (∀ call ∈ calls, Apart call.2.operation.toList) →
      ∀ merged ∈ (Step.addTransitions { signature } calls).transitions,
        pieces merged.operation = ((calls.map (·.2.operation)).filter (!·.isEmpty)).eraseDups := by
  intro listed
  let calls : List (Nat × Transition) := [(40, { operation := "WaitAnyUntil" }), (40, { operation := "WaitAny" })]
  have same := listed {} calls (by decide +kernel) (by decide +kernel) { operation := "WaitAnyUntil" }
    (by decide +kernel)
  revert same
  decide +kernel

end StepChart
