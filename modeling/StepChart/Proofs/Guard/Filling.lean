import StepChart.Proofs.Guard.Labels
import StepChart.Proofs.Guard.Overflow

/-!
# How labels are filled

A label takes alternatives as long as more than three bytes are left, and takes one whole if it exceeds what is left by
less than three bytes. So each that is added ends at most two bytes beyond the room (`Adds`), whatever the forms of
alternatives are; the first one is never refused. Dots stand for all that come after the first that is not added
(`label_filled`).
-/

namespace StepChart.Guard

open Syntax Unbounded

/-- The room that a label leaves. -/
def roomLeft (room : Nat) (label : String) : Int := room - label.utf8ByteSize

/-- The next alternative is not added to a label: too little room is left for any, or its form exceeds what is left by
three bytes or more. -/
def Refuses (source : String) (room : Nat) (label : String) (next : Expr) : Prop :=
  room ≤ label.utf8ByteSize + 3 ∨ ∃ form, alternativeText source next (roomLeft room label) = .ok form ∧
    room + 3 ≤ label.utf8ByteSize + form.utf8ByteSize

/-- Alternatives and the forms in which they are added to a label one after the other, each made for the room that is
left. -/
inductive Adds (source : String) (room : Nat) : String → List Expr → List String → Prop
  | nil {label : String} : Adds source room label [] []
  | cons {label form : String} {alternative : Expr} {rest : List Expr} {forms : List String}
      (roomy : label.utf8ByteSize + 3 < room)
      (isForm : alternativeText source alternative (roomLeft room label) = .ok form)
      (fits : label.utf8ByteSize + form.utf8ByteSize < room + 3) (onward : Adds source room (label ++ form) rest forms) :
      Adds source room label (alternative :: rest) (form :: forms)

/-- How a label ends with some alternatives left: there are none, the first of them is refused, or it has no form; or a
number is out of range. -/
inductive Ends (source : String) (room : Nat) (label : String) : List Expr → Except LabelError String → Prop
  | done : Ends source room label [] (.ok label)
  | dots {next : Expr} {rest : List Expr} (refuses : Refuses source room label next) :
      Ends source room label (next :: rest) (.ok (label ++ "..."))
  | fault {next : Expr} {rest : List Expr} {error : LabelError}
      (isFault : alternativeText source next (roomLeft room label) = .error error) :
      Ends source room label (next :: rest) (.error error)
  | outOfRange {rest : List Expr} : Ends source room label rest (.error .outOfRange)

namespace Ends

variable {source label unquoted : String} {room : Nat} {rest : List Expr}

theorem of_ok (ends : Ends source room label rest (.ok unquoted)) :
    unquoted = label ++ (if rest = [] then "" else "...") ∧ ∀ next ∈ rest.head?, Refuses source room label next := by
  cases ends with
  | done =>
    refine ⟨?_, fun next isNext => absurd isNext (by simp)⟩
    rw [if_pos rfl, String.append_empty]
  | dots refuses =>
    refine ⟨rfl, fun next isNext => ?_⟩
    cases isNext
    exact refuses

theorem of_noExcerpt {error : ExcerptError} (ends : Ends source room label rest (.error (.noExcerpt error))) :
    ∃ next others, rest = next :: others ∧
      alternativeText source next (roomLeft room label) = .error (.noExcerpt error) := by
  cases ends with
  | fault isFault => exact ⟨_, _, rfl, isFault⟩

end Ends

section

variable {source label : String} {room : Nat} {alternative : Expr} {rest alternatives : List Expr}

/-! ## Filling -/

theorem checked_bind (number : Int) (next : Int → Except LabelError String) :
    (checked number >>= next) = if Fits number then next number else .error .outOfRange := by
  unfold checked
  split <;> rfl

/-- **One alternative**: it ends the label, or it is added and the label goes on. -/
theorem extend_cons (source : String) (room : Nat) (label : String) (alternative : Expr) (rest : List Expr) :
    Ends source room label (alternative :: rest) (extend source room label (alternative :: rest)) ∨
    ∃ form, label.utf8ByteSize + 3 < room ∧ alternativeText source alternative (roomLeft room label) = .ok form ∧
      label.utf8ByteSize + form.utf8ByteSize < room + 3 ∧
      extend source room label (alternative :: rest) = extend source room (label ++ form) rest := by
  have isLeft : (room : Int) - bytes label = roomLeft room label := rfl
  rw [extend, isLeft, checked_bind]
  split
  · split
    · next roomy =>
      unfold roomLeft at roomy
      cases isForm : alternativeText source alternative (roomLeft room label) with
      | error error => exact .inl (.fault isForm)
      | ok form =>
        have formBytes := bytes_eq form
        change Ends _ _ _ _ (checked (roomLeft room label + 3) >>= _) ∨ ∃ form, _ ∧ _ ∧ _ ∧ (checked _ >>= _) = _
        rw [checked_bind]
        split
        · split
          · next isShort =>
            unfold roomLeft at isShort
            exact .inr ⟨form, by omega, rfl, by omega, rfl⟩
          · next isLong =>
            unfold roomLeft at isLong
            exact .inl (.dots (.inr ⟨form, isForm, by omega⟩))
        · exact .inl .outOfRange
    · next noRoom =>
      unfold roomLeft at noRoom
      exact .inl (.dots (.inl (by omega)))
  · exact .inl .outOfRange

/-- **All alternatives**: some are added, and the label ends with the others left. -/
theorem extend_adds (source : String) (room : Nat) (label : String) (alternatives : List Expr) :
    ∃ taken rest forms, alternatives = taken ++ rest ∧ Adds source room label taken forms ∧
      Ends source room (label ++ String.join forms) rest (extend source room label alternatives) := by
  induction alternatives generalizing label with
  | nil =>
    refine ⟨[], [], [], rfl, .nil, ?_⟩
    rw [String.join_nil, String.append_empty]
    exact .done
  | cons alternative rest ih =>
    rcases extend_cons source room label alternative rest with ends | ⟨form, roomy, isForm, fits, onward⟩
    · refine ⟨[], alternative :: rest, [], rfl, .nil, ?_⟩
      rwa [String.join_nil, String.append_empty]
    · obtain ⟨taken, others, forms, rfl, adds, ends⟩ := ih (label ++ form)
      refine ⟨alternative :: taken, others, form :: forms, rfl, .cons roomy isForm fits adds, ?_⟩
      rwa [onward, String.join_cons, ← String.append_assoc]

/-- What is added ends at most two bytes beyond the room. -/
theorem Adds.utf8ByteSize_le {taken : List Expr} {forms : List String} (adds : Adds source room label taken forms) :
    (label ++ String.join forms).utf8ByteSize ≤ max label.utf8ByteSize (room + 2) := by
  induction adds with
  | nil =>
    rw [String.join_nil, String.append_empty]
    exact Nat.le_max_left _ _
  | @cons label form alternative rest forms roomy isForm fits onward ih =>
    rw [String.utf8ByteSize_append (s := label) (t := form)] at ih
    rw [String.join_cons, ← String.append_assoc]
    omega

/-- The text of a label: its first form, those that are added, and dots if some alternatives are left. -/
theorem text_filled (source : String) (room : Nat) (first : Expr) (others : List Expr) :
    (∃ error, alternativeText source first room = .error error ∧
      text source room (first :: others) = .error error) ∨
    ∃ start taken rest forms, alternativeText source first room = .ok start ∧ others = taken ++ rest ∧
      Adds source room start taken forms ∧
      Ends source room (start ++ String.join forms) rest (text source room (first :: others)) := by
  rw [text]
  cases isStart : alternativeText source first room with
  | error error => exact .inl ⟨error, rfl, rfl⟩
  | ok start =>
    obtain ⟨taken, rest, forms, isOthers, adds, ends⟩ := extend_adds source room start others
    exact .inr ⟨start, taken, rest, forms, rfl, isOthers, adds, ends⟩

end

/-- No number of a label is out of range if the room is not too near the greatest number. -/
theorem label_ne_outOfRange {source : String} {room : Nat} {guard : Guard} (low : 4 ≤ room) (high : room ≤ Nat.pow 2 62)
    (small : guardBytes source guard.alternatives < Nat.pow 2 62) : label source room guard ≠ .error .outOfRange := by
  have highest : Int64.maxValue.toInt = 9223372036854775807 := rfl
  have size : Nat.pow 2 62 = 4611686018427387904 := rfl
  intro failed
  have outOfRange := label_eq_outOfRange_iff.1 failed
  rw [signedRoom_eq (by omega), inRange_label, inRange_text_iff (by omega) (by omega) small] at outOfRange
  refine outOfRange fun label overflows => ?_
  obtain ⟨first, second, rest, part, -, -, -, exceeds⟩ := overflows
  have nonneg := bytes_nonneg label
  omega

/-- **How the label of a guard is filled.** Its text before quoting is the form of the first alternative, followed by those
of the alternatives that are added to it in order, and by dots exactly if some are left, the first of which is refused.
It exceeds the first form or the room with two bytes by the dots at most; a single alternative has its form. There is
no label only where the next form would be an excerpt that the source does not have or, with room for four bytes, if the
alternatives have so many bytes that a number is out of range. -/
theorem label_filled (source : String) (room : Nat) (first : Expr) (others : List Expr) (inverted : Bool)
    (high : room ≤ Nat.pow 2 62) :
    (∀ label, Guard.label source room ⟨first :: others, inverted⟩ = .ok label →
      ∃ start taken rest forms unquoted, alternativeText source first room = .ok start ∧
        others = taken ++ rest ∧ Adds source room start taken forms ∧
        (∀ next ∈ rest.head?, Refuses source room (start ++ String.join forms) next) ∧
        text source room (first :: others) = .ok unquoted ∧ label = bracket inverted unquoted ∧
        unquoted = start ++ String.join forms ++ (if rest = [] then "" else "...") ∧
        unquoted.utf8ByteSize ≤ max start.utf8ByteSize (room + 2) + 3 ∧
        (others = [] → unquoted.utf8ByteSize = start.utf8ByteSize)) ∧
    (∀ error, Guard.label source room ⟨first :: others, inverted⟩ = .error (.noExcerpt error) →
      alternativeText source first room = .error (.noExcerpt error) ∨
      ∃ start taken next rest forms, alternativeText source first room = .ok start ∧
        others = taken ++ next :: rest ∧ Adds source room start taken forms ∧
        alternativeText source next (roomLeft room (start ++ String.join forms)) = .error (.noExcerpt error)) ∧
    (4 ≤ room → Guard.label source room ⟨first :: others, inverted⟩ = .error .outOfRange →
      Nat.pow 2 62 ≤ guardBytes source (first :: others)) := by
  have highest : Int64.maxValue.toInt = 9223372036854775807 := rfl
  have size : Nat.pow 2 62 = 4611686018427387904 := rfl
  have signed : signedRoom room = room := signedRoom_eq (by omega)
  refine ⟨fun label labelled => ?_, fun error failed => ?_, fun low failed => ?_⟩
  · obtain ⟨unquoted, isText, isLabel⟩ := exists_text_of_label (List.cons_ne_nil first others) labelled
    rw [signed] at isText
    rcases text_filled source room first others with
      ⟨error, -, failed⟩ | ⟨start, taken, rest, forms, isStart, isOthers, adds, ends⟩
    · cases isText.symm.trans failed
    · rw [isText] at ends
      obtain ⟨isUnquoted, refuses⟩ := ends.of_ok
      refine ⟨start, taken, rest, forms, unquoted, isStart, isOthers, adds, refuses, isText, isLabel, isUnquoted, ?_, ?_⟩
      · have small := adds.utf8ByteSize_le
        have dots : (if rest = [] then "" else "...").utf8ByteSize ≤ 3 := by split <;> decide
        rw [isUnquoted, String.utf8ByteSize_append (t := ite _ _ _)]
        omega
      · rintro rfl
        obtain ⟨rfl, rfl⟩ := List.append_eq_nil_iff.1 isOthers.symm
        cases adds
        rw [isUnquoted, String.join_nil, String.append_empty, if_pos rfl, String.append_empty]
  · have textFailed := text_of_label_error (List.cons_ne_nil first others) failed
    rw [signed] at textFailed
    rcases text_filled source room first others with
      ⟨other, isFault, isOther⟩ | ⟨start, taken, rest, forms, isStart, rfl, adds, ends⟩
    · cases textFailed.symm.trans isOther
      exact .inl isFault
    · rw [textFailed] at ends
      obtain ⟨next, others, rfl, isFault⟩ := ends.of_noExcerpt
      exact .inr ⟨start, taken, next, others, forms, isStart, rfl, adds, isFault⟩
  · by_contra small
    exact label_ne_outOfRange low high (Nat.not_le.1 small) failed

/-- The second of three alternatives ends two bytes beyond the room, so that dots stand for the third. -/
theorem label_filled_beyond :
    let others : List Expr := [.ident {} "bbbbbbbb", .ident {} "c"]
    ∃ start unquoted, alternativeText "" (.ident {} "aaaa") 10 = .ok start ∧
      Guard.label "" 10 ⟨.ident {} "aaaa" :: others, false⟩ = .ok "[aaaabbbbbbbb...]" ∧
      "[aaaabbbbbbbb...]" = bracket false unquoted ∧ unquoted.utf8ByteSize ≤ max start.utf8ByteSize 12 + 3 := by
  intro others
  have labelled : Guard.label "" 10 ⟨.ident {} "aaaa" :: others, false⟩ = .ok "[aaaabbbbbbbb...]" := by decide +kernel
  obtain ⟨start, -, -, -, unquoted, isStart, -, -, -, -, isLabel, -, small, -⟩ :=
    (label_filled "" 10 (.ident {} "aaaa") others false (by decide)).1 _ labelled
  exact ⟨start, unquoted, isStart, labelled, isLabel, small⟩

end StepChart.Guard
