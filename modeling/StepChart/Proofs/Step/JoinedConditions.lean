import Mathlib.Order.Bounds.Basic
import StepChart.Proofs.Step.Repeats
import StepChart.Proofs.Text.Pieces

/-!
# The condition of the repeat

The conditions of the repeats of a step are joined line by line. That the text was cut shows in nothing but the dots at
its end, so all depends on texts that are not cut not ending in dots: the line break in writing ends in a letter, and a
join ends in dots only if its last condition does (`endsWith_joined`). `Merged` is the text after some
conditions, in closed form; each further condition keeps it (`Merged.joinConditions`).
-/

namespace StepChart

open Text

/-! ## Joined conditions -/

/-- The conditions with a line break in writing between them. -/
def joined (conditions : List String) : String := "\\n".intercalate conditions

theorem joined_concat {conditions : List String} (some : conditions ≠ []) (more : String) :
    joined (conditions ++ [more]) = joined conditions ++ "\\n" ++ more :=
  intercalate_concat "\\n" some more

/-- What does not hold a character ends a text with that character as it ends what stands after the character. -/
theorem suffix_append_cons_iff {α : Type} {part before after : List α} {a : α} (without : a ∉ part) :
    part <:+ before ++ a :: after ↔ part <:+ after := by
  have ends : a :: after <:+ before ++ a :: after := List.suffix_append before (a :: after)
  constructor
  · intro isSuffix
    rcases Nat.lt_or_ge after.length part.length with longer | shorter
    · have within : a :: after <:+ part := List.suffix_of_suffix_length_le ends isSuffix longer
      exact absurd (within.subset List.mem_cons_self) without
    · exact List.suffix_of_suffix_length_le isSuffix ((List.suffix_cons a after).trans ends) shorter
  · intro isSuffix
    exact isSuffix.trans ((List.suffix_cons a after).trans ends)

/-- A line more ends in dots if it does so itself. -/
theorem endsWith_line (text more : String) : endsWith "..." (text ++ "\\n" ++ more) = endsWith "..." more := by
  have split : (text ++ "\\n" ++ more).toList = (text.toList ++ ['\\']) ++ 'n' :: more.toList := by simp
  rw [Bool.eq_iff_iff, endsWith, endsWith, List.isSuffixOf_iff_suffix, List.isSuffixOf_iff_suffix, split]
  exact suffix_append_cons_iff (by decide)

/-- A join ends in dots only if its last condition does. -/
theorem endsWith_joined {conditions : List String} (uncut : ∀ condition ∈ conditions, endsWith "..." condition = false) :
    endsWith "..." (joined conditions) = false := by
  rcases List.eq_nil_or_concat' conditions with rfl | ⟨front, last, rfl⟩
  · rfl
  · have lastUncut := uncut last (by simp)
    cases front with
    | nil => exact lastUncut
    | cons first front => rw [joined_concat (List.cons_ne_nil first front), endsWith_line, lastUncut]

theorem joined_ne_empty {conditions : List String} (some : conditions ≠ [])
    (filled : ∀ condition ∈ conditions, condition ≠ "") : joined conditions ≠ "" :=
  intercalate_ne_empty "\\n" some filled

/-! ## The text in closed form -/

/-- The text of the first `count` conditions reaches the limit; a condition alone does not count. -/
def Reaches (limit : Nat) (conditions : List String) (count : Nat) : Prop :=
  2 ≤ count ∧ count ≤ conditions.length ∧ limit ≤ (joined (conditions.take count)).utf8ByteSize

/-- The text after some conditions: all of them are joined, or those up to where the limit is reached, with dots. -/
inductive Merged (limit : Nat) (conditions : List String) : String → Prop
  | whole (below : ∀ count, ¬ Reaches limit conditions count) : Merged limit conditions (joined conditions)
  | cut {count : Nat} (least : IsLeast {count | Reaches limit conditions count} count) :
      Merged limit conditions (joined (conditions.take count) ++ "...")

/-- Conditions that can be told from cut ones. -/
structure Plain (condition : String) : Prop where
  filled : condition ≠ ""
  uncut : endsWith "..." condition = false

variable {limit : Nat} {conditions : List String} {text : String}

/-- Nothing is reached by one condition alone. -/
theorem not_reaches (single : conditions.length < 2) (count : Nat) : ¬ Reaches limit conditions count := by
  rintro ⟨two, inside, -⟩
  omega

theorem reaches_concat_iff {count : Nat} (inside : count ≤ conditions.length) (more : String) :
    Reaches limit (conditions ++ [more]) count ↔ Reaches limit conditions count := by
  unfold Reaches
  rw [List.take_append_of_le_length inside, List.length_append]
  constructor
  · rintro ⟨two, -, reached⟩
    exact ⟨two, inside, reached⟩
  · rintro ⟨two, -, reached⟩
    exact ⟨two, by omega, reached⟩

theorem endsWith_append_dots (text : String) : endsWith "..." (text ++ "...") = true := by
  rw [endsWith, List.isSuffixOf_iff_suffix, String.toList_append]
  exact List.suffix_append _ _

/-- Nothing is added to a text that was cut. -/
theorem joinConditions_dots (limit : Nat) (text more : String) :
    Transition.joinConditions limit (text ++ "...") more = text ++ "..." := by
  unfold Transition.joinConditions
  rw [endsWith_append_dots]
  simp

/-- A line is added to a text that was not cut, and dots if the limit is reached with it. -/
theorem joinConditions_line {more : String} (filled : more ≠ "") (some : text ≠ "")
    (uncut : endsWith "..." text = false) :
    Transition.joinConditions limit text more =
      if limit ≤ (text ++ "\\n" ++ more).utf8ByteSize then text ++ "\\n" ++ more ++ "..."
      else text ++ "\\n" ++ more := by
  unfold Transition.joinConditions
  simp [filled, some, uncut]

/-- One more condition is joined. -/
theorem Merged.joinConditions (merged : Merged limit conditions text) (plain : ∀ condition ∈ conditions, Plain condition)
    {more : String} (filled : more ≠ "") :
    Merged limit (conditions ++ [more]) (Transition.joinConditions limit text more) := by
  cases merged with
  | whole below =>
    by_cases some : conditions = []
    · subst some
      have alone : Transition.joinConditions limit (joined []) more = joined ([] ++ [more]) := by
        simp [Transition.joinConditions, joined]
      rw [alone]
      exact .whole (not_reaches (by simp))
    · have filledBefore := joined_ne_empty some fun condition member => (plain condition member).filled
      have uncut := endsWith_joined fun condition member => (plain condition member).uncut
      have atLeastOne := List.length_pos_iff.2 some
      have whole : (conditions ++ [more]).take (conditions.length + 1) = conditions ++ [more] :=
        List.take_of_length_le (by simp)
      rw [joinConditions_line filled filledBefore uncut, ← joined_concat some more]
      split
      · next reached =>
        rw [← whole] at reached
        have isLeast : IsLeast {count | Reaches limit (conditions ++ [more]) count} (conditions.length + 1) := by
          refine ⟨⟨by omega, by simp, reached⟩, fun count reaches => ?_⟩
          by_contra earlier
          exact below count ((reaches_concat_iff (by omega) more).1 reaches)
        have cut := Merged.cut isLeast
        rwa [whole] at cut
      · next short =>
        refine .whole fun count reaches => ?_
        by_cases earlier : count ≤ conditions.length
        · exact below count ((reaches_concat_iff earlier more).1 reaches)
        · obtain ⟨-, inside, reached⟩ := reaches
          have last : count = conditions.length + 1 := by
            rw [List.length_append, List.length_singleton] at inside
            omega
          rw [last, whole] at reached
          exact short reached
  | @cut count least =>
    have inside := least.1.2.1
    rw [joinConditions_dots, ← List.take_append_of_le_length inside]
    refine .cut ⟨(reaches_concat_iff inside more).2 least.1, fun other reaches => ?_⟩
    by_contra earlier
    exact earlier (least.2 ((reaches_concat_iff (by omega) more).1 reaches))

/-- All conditions that are given are joined, those that are empty apart. -/
theorem Merged.foldl (merged : Merged limit conditions text) (plain : ∀ condition ∈ conditions, Plain condition)
    {given : List String} (uncut : ∀ condition ∈ given, endsWith "..." condition = false) :
    Merged limit (conditions ++ given.filter (!·.isEmpty)) (given.foldl (Transition.joinConditions limit) text) := by
  induction given generalizing conditions text with
  | nil => simpa using merged
  | cons more given ih =>
    obtain ⟨uncutMore, uncutGiven⟩ := List.forall_mem_cons.1 uncut
    rw [List.foldl_cons]
    by_cases filled : more = ""
    · subst filled
      exact ih merged plain uncutGiven
    · have plainMore : ∀ condition ∈ conditions ++ [more], Plain condition :=
        List.forall_mem_append.2 ⟨plain, List.forall_mem_singleton.2 ⟨filled, uncutMore⟩⟩
      have kept : (more :: given).filter (!·.isEmpty) = more :: given.filter (!·.isEmpty) :=
        List.filter_cons_of_pos (by simpa using filled)
      rw [kept, List.append_cons]
      exact ih (merged.joinConditions plain filled) plainMore uncutGiven

/-! ## Reading off the text -/

theorem Merged.eq_cut (merged : Merged limit conditions text) {count : Nat}
    (least : IsLeast {count | Reaches limit conditions count} count) :
    text = joined (conditions.take count) ++ "..." := by
  cases merged with
  | whole below => exact absurd least.1 (below count)
  | cut other => rw [other.unique least]

theorem Merged.eq_joined (merged : Merged limit conditions text) (below : ∀ count, ¬ Reaches limit conditions count) :
    text = joined conditions := by
  cases merged with
  | whole => rfl
  | @cut count least => exact absurd least.1 (below count)

/-- Dots stand at the end if the limit was reached, and only then. -/
theorem Merged.endsWith_iff (merged : Merged limit conditions text)
    (uncut : ∀ condition ∈ conditions, endsWith "..." condition = false) :
    endsWith "..." text = true ↔ ∃ count, Reaches limit conditions count := by
  cases merged with
  | whole below =>
    rw [endsWith_joined uncut]
    exact iff_of_false Bool.false_ne_true fun ⟨count, reaches⟩ => below count reaches
  | @cut count least => exact iff_of_true (endsWith_append_dots _) ⟨count, least.1⟩

/-- What stands before the dots does not end in dots. -/
theorem Merged.dots_once (merged : Merged limit conditions text)
    (uncut : ∀ condition ∈ conditions, endsWith "..." condition = false) {front : String}
    (dots : text = front ++ "...") : endsWith "..." front = false := by
  cases merged with
  | whole below =>
    have ended := endsWith_joined uncut
    rw [dots, endsWith_append_dots] at ended
    cases ended
  | @cut count least =>
    rw [← (String.append_left_inj _).1 dots]
    exact endsWith_joined fun condition member => uncut condition (List.mem_of_mem_take member)

/-! ## Steps -/

theorem condition_foldAll (limit : Nat) (first : Transition) {repeats : List Transition}
    (all : ∀ transition ∈ repeats, transition.isRepeat = true) :
    (first.foldAll (repeats.map (Prod.mk limit))).condition =
      ((first :: repeats).map (·.condition)).foldl (Transition.joinConditions limit) "" := by
  have kept : (repeats.map (Prod.mk limit)).filter (·.2.isRepeat) = repeats.map (Prod.mk limit) :=
    List.filter_eq_self.2 (List.forall_mem_map.2 all)
  have start : Transition.joinConditions limit "" first.condition = first.condition := by
    unfold Transition.joinConditions
    split <;> simp_all
  rw [Transition.foldAll, kept, List.foldl_map, List.map_cons, List.foldl_cons, start, List.foldl_map]
  exact (List.foldl_hom Transition.condition fun _ _ => rfl).symm

/-- Repeats that are given with one limit are folded with it. -/
theorem Step.Collected.eq_singleton {limit : Nat} {first : Transition} {repeats : List Transition} {step : Step}
    (collected : step.Collected ((first :: repeats).map (Prod.mk limit)))
    (all : ∀ transition ∈ first :: repeats, transition.isRepeat = true) :
    step.transitions = [first.foldAll (repeats.map (Prod.mk limit))] := by
  have allCalls : ∀ call ∈ (first :: repeats).map (Prod.mk limit), call.2.isRepeat = true := List.forall_mem_map.2 all
  exact collected.of_repeats allCalls

/-- **The condition of the repeat in closed form.** Of repeats with conditions that do not end in dots, those that have
one are joined line by line up to the first of them, from the second one on, with which the text reaches the limit; then
dots end it. They do so once, and exactly if the limit is reached. -/
theorem condition_joined (signature : Signature) (limit : Nat) {repeats : List Transition} (given : repeats ≠ [])
    (all : ∀ transition ∈ repeats, transition.isRepeat = true)
    (uncut : ∀ transition ∈ repeats, endsWith "..." transition.condition = false) :
    let step := Step.addTransitions { signature } (repeats.map (Prod.mk limit))
    let conditions := (repeats.map (·.condition)).filter (!·.isEmpty)
    ∃ merged, step.transitions = [merged] ∧
      (conditions = [] → merged.condition = "") ∧
      (∀ count, IsLeast {count | Reaches limit conditions count} count →
        merged.condition = joined (conditions.take count) ++ "...") ∧
      (conditions ≠ [] → (∀ count, ¬ Reaches limit conditions count) → merged.condition = joined conditions) ∧
      (endsWith "..." merged.condition = true ↔ ∃ count, Reaches limit conditions count) ∧
      ∀ front, merged.condition = front ++ "..." → endsWith "..." front = false := by
  intro step conditions
  obtain ⟨first, rest, rfl⟩ := List.exists_cons_of_ne_nil given
  have collected : step.Collected _ := Step.collected_addTransitions rfl rfl _
  have uncutGiven : ∀ condition ∈ (first :: rest).map (·.condition), endsWith "..." condition = false :=
    List.forall_mem_map.2 uncut
  have start : Merged limit [] "" := .whole (not_reaches (by simp))
  have merged : Merged limit conditions (first.foldAll (rest.map (Prod.mk limit))).condition := by
    rw [condition_foldAll limit first (List.forall_mem_cons.1 all).2]
    exact start.foldl (List.forall_mem_nil _) uncutGiven
  have uncutConditions : ∀ condition ∈ conditions, endsWith "..." condition = false :=
    fun condition member => uncutGiven condition (List.mem_of_mem_filter member)
  refine ⟨_, collected.eq_singleton all, fun none => ?_, fun count => merged.eq_cut, fun _ => merged.eq_joined,
    merged.endsWith_iff uncutConditions, fun front => merged.dots_once uncutConditions⟩
  rw [none] at merged
  exact merged.eq_joined (not_reaches (by simp))

/-- Of four repeats, one of them without a condition, the text of the first three reaches ten bytes; the last one is
left out. -/
theorem condition_joined_cut :
    let repeats : List Transition :=
      [{ condition := "[aaaaaa]" }, {}, { condition := "[bbbbbb]" }, { condition := "[cccccc]" }]
    repeats ≠ [] ∧ (∀ transition ∈ repeats, transition.isRepeat = true) ∧
      (∀ transition ∈ repeats, endsWith "..." transition.condition = false) ∧
      ∃ merged, (Step.addTransitions { signature := {} } (repeats.map (Prod.mk 10))).transitions = [merged] ∧
        merged.condition = "[aaaaaa]\\n[bbbbbb]..." := by
  intro repeats
  have given : repeats ≠ [] := List.cons_ne_nil _ _
  have all : ∀ transition ∈ repeats, transition.isRepeat = true := by decide +kernel
  have uncut : ∀ transition ∈ repeats, endsWith "..." transition.condition = false := by decide +kernel
  obtain ⟨merged, only, -, cut, -⟩ := condition_joined {} 10 given all uncut
  refine ⟨given, all, uncut, merged, only, cut 2 ⟨⟨Nat.le_refl 2, ?_, ?_⟩, fun count reaches => reaches.1⟩⟩
  · decide +kernel
  · decide +kernel

end StepChart
