import StepChart.Proofs.Trace.Worded

/-!
# Where the transitions of a step come from

Repeats after the first one are folded into it, and a fold changes nothing but the condition and the operation. So the
transitions of a step are those that it was given, one by one, without the repeats after the first
(`Step.Collected.forall₂`), and the transitions of a worded step are those of its moves (`toStep_forall₂`).
-/

namespace StepChart

/-! ## Lists with one element of a kind -/

/-- The list without the elements that pass the test, except for the first of them. -/
def keepFirst {α : Type} (test : α → Bool) : List α → List α
  | [] => []
  | first :: rest => first :: if test first then rest.filter (!test ·) else keepFirst test rest

section KeepFirst

variable {α β : Type} {test : α → Bool}

theorem keepFirst_eq_self {list : List α} (none : ∀ a ∈ list, test a = false) : keepFirst test list = list := by
  induction list with
  | nil => rfl
  | cons first rest ih =>
    obtain ⟨notFirst, notRest⟩ := List.forall_mem_cons.1 none
    rw [keepFirst, notFirst, if_neg Bool.false_ne_true, ih notRest]

theorem keepFirst_append_cons {before : List α} (none : ∀ a ∈ before, test a = false) {first : α}
    (passes : test first = true) (after : List α) :
    keepFirst test (before ++ first :: after) = before ++ first :: after.filter (!test ·) := by
  induction before with
  | nil => rw [List.nil_append, keepFirst, passes, if_pos rfl, List.nil_append]
  | cons other before ih =>
    obtain ⟨notOther, notBefore⟩ := List.forall_mem_cons.1 none
    rw [List.cons_append, keepFirst, notOther, if_neg Bool.false_ne_true, ih notBefore, List.cons_append]

theorem keepFirst_sublist (list : List α) : (keepFirst test list).Sublist list := by
  induction list with
  | nil => exact .slnil
  | cons first rest ih =>
    rw [keepFirst]
    refine List.Sublist.cons_cons first ?_
    split
    · exact List.filter_sublist
    · exact ih

theorem forall₂_keepFirst {related : α → β → Prop} {other : β → Bool} (agree : ∀ a b, related a b → test a = other b)
    {first : List α} {second : List β} (all : List.Forall₂ related first second) :
    List.Forall₂ related (keepFirst test first) (keepFirst other second) := by
  induction all with
  | nil => exact .nil
  | @cons a b as bs same rest ih =>
    rw [keepFirst, keepFirst, agree a b same]
    refine .cons same ?_
    split
    · exact List.rel_filter (fun a b same => by simp [agree a b same]) rest
    · exact ih

end KeepFirst

/-! ## Related lists -/

section Related

variable {α β γ : Type} {related : α → β → Prop} {first : List α} {second : List β}

theorem forall₂_modify {change : α → α} {other : β → β} (changes : ∀ a b, related a b → related (change a) (other b))
    (all : List.Forall₂ related first second) (index : Nat) :
    List.Forall₂ related (first.modify index change) (second.modify index other) := by
  induction all generalizing index with
  | nil => simp
  | cons same rest ih =>
    cases index with
    | zero => exact .cons (changes _ _ same) rest
    | succ index => exact .cons same (ih index)

theorem forall₂_trans {further : β → γ → Prop} {whole : α → γ → Prop}
    (through : ∀ a b c, related a b → further b c → whole a c) {third : List γ} (all : List.Forall₂ related first second)
    (next : List.Forall₂ further second third) : List.Forall₂ whole first third := by
  induction all generalizing third with
  | nil =>
    cases next
    exact .nil
  | cons same rest ih =>
    cases next with
    | cons sameNext restNext => exact .cons (through _ _ _ same sameNext) (ih restNext)

end Related

/-! ## Transitions and moves -/

/-- **The transitions of a step are those that it was given**, without the repeats after the first. -/
theorem Step.Collected.forall₂ {calls : List (Nat × Transition)} {step : Step} (collected : step.Collected calls) :
    List.Forall₂ Transition.SameWay (keepFirst Transition.isRepeat (calls.map Prod.snd)) step.transitions := by
  have same : ∀ transitions : List Transition, List.Forall₂ Transition.SameWay transitions transitions :=
    fun transitions => List.forall₂_same.2 fun transition _ => .refl transition
  cases collected with
  | onward onward transitions place =>
    rw [keepFirst_eq_self onward, transitions]
    exact same _
  | @folded before after limit first _ onward isRepeat transitions place =>
    rw [List.map_append, List.map_cons, keepFirst_append_cons onward isRepeat, transitions]
    exact List.rel_append (same _) (.cons (first.sameWay_foldAll after) (same _))

theorem Transition.SameWay.worded {first second : Transition} {move : Move} (same : first.SameWay second)
    (worded : move.Worded first) : move.transition.SameWay second := by
  obtain ⟨condition, rfl⟩ := worded
  obtain ⟨other, operation, rfl⟩ := same
  exact ⟨_, _, rfl⟩

/-- The transitions of a step are those of the moves of its outline, without the repeats after the first. -/
theorem toStep_forall₂ {wording : Wording} {outline : Outline} {step : Step}
    (worded : outline.toStep wording = .ok step) :
    List.Forall₂ (fun move transition => move.transition.SameWay transition)
      (keepFirst (·.transition.isRepeat) outline.moves) step.transitions := by
  obtain ⟨transitions, inWords, collected⟩ := toStep_collected worded
  have sameRepeats : ∀ move transition, Move.Worded move transition →
      move.transition.isRepeat = transition.isRepeat := by
    rintro move transition ⟨condition, rfl⟩
    rfl
  have folded := collected.forall₂
  rw [List.map_map, Function.comp_def, List.map_id'] at folded
  refine forall₂_trans ?_ (forall₂_keepFirst sameRepeats inWords) folded
  exact fun _ _ _ inWords same => same.worded inWords

end StepChart
