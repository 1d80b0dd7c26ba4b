import StepChart.Proofs.Guard.Labels
import StepChart.Proofs.Text.Unquoting
import StepChart.Step.Basic

/-!
# Reading labels back

The label of a guard with alternatives holds its text in escaped form and a mark for its polarity, so that both can be
read back (`readLabel?_bracket`). A label is safe between double quotes, and so is what labels are joined to when
transitions are folded into one another (`Composed.safe`).
-/

namespace StepChart.Guard

open Text

/-- The text and the polarity that a label stands for. -/
def readLabel? (label : String) : Option (String × Bool) :=
  let inverted := startsWith "!" label
  let form := if inverted then label.toList.tail else label.toList
  if form.head? = some '[' ∧ form.getLast? = some ']' then
    (readEscaped .between form.tail.dropLast).bind fun read =>
      if read.2 = [] then some (String.ofList read.1, inverted) else none
  else none

theorem toList_bracket (inverted : Bool) (text : String) :
    (bracket inverted text).toList =
      (if inverted then ['!'] else []) ++ '[' :: (text.toList.flatMap escapeChar ++ [']']) := by
  cases inverted <;> simp [bracket, escape]

/-- **The text and the polarity of a label can be read back.** -/
theorem readLabel?_bracket (inverted : Bool) (text : String) :
    readLabel? (bracket inverted text) = some (text, inverted) := by
  have marked : startsWith "!" (bracket inverted text) = inverted := by
    rw [startsWith, toList_bracket]
    cases inverted <;> rfl
  have form : (if inverted then (bracket inverted text).toList.tail else (bracket inverted text).toList) =
      '[' :: (text.toList.flatMap escapeChar ++ [']']) := by
    rw [toList_bracket]
    cases inverted <;> rfl
  have read : readEscaped .between (text.toList.flatMap escapeChar) = some (text.toList, []) := by
    have whole := readEscaped_escape text.toList []
    rwa [List.append_nil, readEscaped, Option.map_some, Prod.map_apply, List.append_nil] at whole
  have closed : ('[' :: (text.toList.flatMap escapeChar ++ [']'])).getLast? = some ']' := by
    rw [← List.cons_append, List.getLast?_concat]
  simp only [readLabel?, marked, form, closed, List.head?_cons, and_self, if_true, List.tail_cons, List.dropLast_concat,
    read, Option.bind_some, String.ofList_toList]

theorem safe_bracket (inverted : Bool) (text : String) : Safe (bracket inverted text).toList := by
  have opening : Safe ((if inverted then ['!'] else []) ++ ['[']) := by
    cases inverted <;> exact safe_of_plain (by decide) rfl
  have closing : Safe [']'] := safe_of_plain (by decide) rfl
  rw [toList_bracket, List.append_cons]
  exact opening.append ((safe_escape text.toList).append closing)

/-- A guard without alternatives has an empty label, whatever its polarity. -/
theorem label_empty {source : String} {room : Nat} {guard : Guard} {label : String} (none : guard.alternatives = [])
    (labelled : Guard.label source room guard = .ok label) : label = "" := by
  rw [Guard.label, none] at labelled
  exact (Except.ok.inj labelled).symm

theorem safe_label {source : String} {room : Nat} {guard : Guard} {label : String}
    (labelled : Guard.label source room guard = .ok label) : Safe label.toList := by
  by_cases none : guard.alternatives = []
  · rw [label_empty none labelled]
    exact safe_of_plain rfl rfl
  · obtain ⟨text, -, rfl⟩ := exists_text_of_label none labelled
    exact safe_bracket guard.inverted text

/-- A label, or what labels are joined to when transitions are folded. -/
inductive Composed : String → Prop where
  | label {source : String} {room : Nat} {guard : Guard} {label : String}
    (labelled : Guard.label source room guard = .ok label) : Composed label
  | merge {first more : String} (limit : Nat) (composed : Composed first) (further : Composed more) :
    Composed (Transition.joinConditions limit first more)

theorem Composed.safe {condition : String} (composed : Composed condition) : Safe condition.toList := by
  induction composed with
  | label labelled => exact safe_label labelled
  | @merge first more limit _ _ safe safeMore =>
    have joined : Safe (first ++ "\\n" ++ more).toList := by
      rw [String.toList_append, String.toList_append]
      exact (safe.append (safe_of_written (c := '\n') (.mark rfl))).append safeMore
    unfold Transition.joinConditions
    split
    · exact safe
    · split
      · exact safeMore
      · split
        · exact safe
        · dsimp only
          split
          · rw [String.toList_append]
            exact joined.append (safe_of_plain (by decide) rfl)
          · exact joined

end StepChart.Guard
