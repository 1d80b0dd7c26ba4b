import StepChart.Proofs.Guard.Bytes
import StepChart.Proofs.Syntax.Excerpts

/-!
# When a number of a label is out of range

No text comes near the range of signed 64-bit numbers, but the room for labels may be as large as they get. The numbers of
forms stay in range (`inRange_shorten`). What is left is the sum that a further alternative is compared with: it exceeds
the room if the label is shorter than three bytes so far. `label_overflows_iff` says that this is the only number that can
be out of range, that labels are those of unbounded numbers if it is not, and that there is no label if it is.
-/

namespace StepChart.Guard

open Syntax Text

/-- Bytes of the source in a span. -/
def spanBytes (source : String) (span : Span) : Nat := min span.stop source.utf8ByteSize - span.start

/-- Bytes of the text of an alternative: those in its span, and no fewer than its tokens have. -/
def alternativeBytes (source : String) (alternative : Expr) : Nat :=
  max (leastBytes alternative) (spanBytes source alternative.span)

/-- Bytes of the texts of alternatives together. -/
def guardBytes (source : String) : List Expr → Nat
  | [] => 0
  | alternative :: rest => alternativeBytes source alternative + guardBytes source rest

namespace Unbounded

/-- The sum that the second alternative is compared with is out of range. -/
def Overflows (source : String) (room : Int) (alternatives : List Expr) (label : String) : Prop :=
  ∃ first second rest part, alternatives = first :: second :: rest ∧
    (alternativeText source first room).result = .ok label ∧
    (alternativeText source second (room - bytes label)).result = .ok part ∧
    Int64.maxValue.toInt < room - bytes label + 3

/-- An excerpt is the text of its span, or as much of it as is asked for and dots. -/
theorem bytes_excerpt {source text : String} {span : Span} {limit : Nat} (found : excerpt source span limit = .ok text) :
    text.utf8ByteSize ≤ spanBytes source span ∨ limit < spanBytes source span ∧ text.utf8ByteSize ≤ limit + 3 := by
  have inSpan : span.stopIn source - span.startIn source = spanBytes source span := by
    unfold Span.startIn Span.stopIn spanBytes
    omega
  rcases Nat.lt_or_ge limit (spanBytes source span) with long | short
  · exact .inr ⟨long, utf8ByteSize_excerpt_le found⟩
  · rw [← inSpan] at short ⊢
    exact .inl (utf8ByteSize_excerpt_short short found)

section Guard

variable {source label : String} {room : Int} {alternative : Expr} {alternatives : List Expr}

/-! ## Alternatives -/

/-- The form of an alternative has at most two bytes for each byte of its text, and one more if it exceeds the room. -/
theorem bytes_alternativeText {part : String} (roomy : 3 < room)
    (isPart : (alternativeText source alternative room).result = .ok part) :
    bytes part ≤ 2 * alternativeBytes source alternative + 1 ∧
      (bytes part < room + 3 → bytes part ≤ 2 * alternativeBytes source alternative) := by
  have written := leastBytes_pos alternative
  have tokens : leastBytes alternative ≤ alternativeBytes source alternative := Nat.le_max_left _ _
  have inSpan : spanBytes source alternative.span ≤ alternativeBytes source alternative := Nat.le_max_right _ _
  simp only [alternativeText, Worked.result_bind, Worked.result_pure] at isPart
  split at isPart
  next =>
    cases found : excerpt source alternative.span room.toNat with
    | error fault =>
      rw [found] at isPart
      cases isPart
    | ok text =>
      rw [found] at isPart
      obtain rfl := Except.ok.inj isPart
      have small := bytes_excerpt found
      have partBytes := bytes_eq text
      omega
  next =>
    obtain rfl := Except.ok.inj isPart
    have small := bytes_shorten alternative room
    refine ⟨by omega, fun fits => ?_⟩
    obtain whole | exceeds := shorten_exceeds alternative room
    · have smallWhole := bytes_full alternative
      rw [whole]
      omega
    · omega

theorem inRange_alternativeText (small : alternativeBytes source alternative < Nat.pow 2 62) (roomy : 3 < room)
    (high : room ≤ Int64.maxValue.toInt) : (alternativeText source alternative room).InRange := by
  have tokens : leastBytes alternative ≤ alternativeBytes source alternative := Nat.le_max_left _ _
  have lowest : Int64.minValue.toInt = -9223372036854775808 := rfl
  have size : Nat.pow 2 62 = 4611686018427387904 := rfl
  rw [inRange_alternativeText_iff]
  exact inRange_shorten alternative (by omega) (by omega) high

/-! ## Labels -/

/-- The numbers of a label are in range if there is room for what it can become, and the sum is in range that the next
alternative is compared with. -/
theorem inRange_extend (low : 0 ≤ room) (high : room ≤ Int64.maxValue.toInt)
    (small : bytes label + 2 * guardBytes source alternatives ≤ Int64.maxValue.toInt)
    (compared : ∀ second ∈ alternatives.head?, ∀ part,
      (alternativeText source second (room - bytes label)).result = .ok part →
        room - bytes label + 3 ≤ Int64.maxValue.toInt) :
    (extend source room label alternatives).InRange := by
  have highest : Int64.maxValue.toInt = 9223372036854775807 := rfl
  have size : Nat.pow 2 62 = 4611686018427387904 := rfl
  induction alternatives generalizing label with
  | nil => exact Worked.inRange_pure _
  | cons alternative rest ih =>
    have nonneg := bytes_nonneg label
    rw [guardBytes] at small
    rw [inRange_extend_cons]
    refine ⟨fits_iff.2 (by omega), fun roomy => ⟨?_, fun part isPart => ?_⟩⟩
    · exact inRange_alternativeText (by omega) roomy (by omega)
    · have sum := compared alternative rfl part isPart
      have partNonneg := bytes_nonneg part
      refine ⟨fits_iff.2 (by omega), fun isShort => ih ?_ fun second isSecond later isLater => ?_⟩
      · -- A form that is added is not longer than twice the text it stands for.
        have partSmall := (bytes_alternativeText roomy isPart).2 isShort
        rw [bytes_append]
        omega
      · rw [bytes_append]
        omega

/-- All numbers of a label are in range unless the sum is not that the second alternative is compared with. -/
theorem inRange_text (low : 4 ≤ room) (high : room ≤ Int64.maxValue.toInt)
    (small : guardBytes source alternatives < Nat.pow 2 62) (holds : ∀ label, ¬ Overflows source room alternatives label) :
    (text source room alternatives).InRange := by
  have highest : Int64.maxValue.toInt = 9223372036854775807 := rfl
  have size : Nat.pow 2 62 = 4611686018427387904 := rfl
  cases alternatives with
  | nil => exact Worked.inRange_pure _
  | cons first rest =>
    rw [guardBytes] at small
    rw [inRange_text_cons]
    refine ⟨inRange_alternativeText (by omega) low high, fun label isLabel => ?_⟩
    have labelSmall := (bytes_alternativeText low isLabel).1
    refine inRange_extend (by omega) high (by omega) fun second isSecond part isPart => ?_
    obtain ⟨rest, rfl⟩ := List.head?_eq_some_iff.1 isSecond
    by_contra exceeds
    exact holds label ⟨first, second, rest, part, rfl, isLabel, isPart, Int.not_le.1 exceeds⟩

theorem not_inRange_text (overflows : Overflows source room alternatives label) :
    ¬ (text source room alternatives).InRange := by
  have highest : Int64.maxValue.toInt = 9223372036854775807 := rfl
  obtain ⟨first, second, rest, part, rfl, isLabel, isPart, exceeds⟩ := overflows
  intro inRange
  have onward := (inRange_text_cons.1 inRange).2 label isLabel
  have sum := (((inRange_extend_cons.1 onward).2 (by omega)).2 part isPart).1
  exact Int.not_le.2 exceeds sum.2

/-- **The only number that can be out of range.** -/
theorem inRange_text_iff (low : 4 ≤ room) (high : room ≤ Int64.maxValue.toInt)
    (small : guardBytes source alternatives < Nat.pow 2 62) :
    (text source room alternatives).InRange ↔ ∀ label, ¬ Overflows source room alternatives label :=
  ⟨fun inRange _ overflows => not_inRange_text overflows inRange, inRange_text low high small⟩

end Guard

end Unbounded

theorem signedRoom_eq {room : Nat} (high : (room : Int) ≤ Int64.maxValue.toInt) : signedRoom room = room := by
  have highest : Int64.maxValue.toInt = 9223372036854775807 := rfl
  exact Int64.toInt_ofNat_of_lt (by omega)

/-- **The only number of a label that can be out of range.** For a room that settings accept and alternatives of less than
2⁶² bytes, it is the sum that the second alternative is compared with: the room that the first one leaves, and three. If
it is in range, all numbers are, and the label is that of unbounded numbers. If not, there is no label, whatever room
there is; and there is no other reason but an excerpt that the source does not have. -/
theorem label_overflows_iff (source : String) (room : Nat) (guard : Guard) (low : 4 ≤ room)
    (high : (room : Int) ≤ Int64.maxValue.toInt) (small : guardBytes source guard.alternatives < Nat.pow 2 62) :
    ((Unbounded.label source room guard).InRange ↔ ∀ text, ¬ Unbounded.Overflows source room guard.alternatives text) ∧
    ((Unbounded.label source room guard).InRange →
      label source room guard = (Unbounded.label source room guard).result) ∧
    (label source room guard = .error .outOfRange ↔
      ∃ text, Unbounded.Overflows source room guard.alternatives text) := by
  have least : (4 : Int) ≤ room := Int.ofNat_le.2 low
  have signed := signedRoom_eq high
  have inRange : (Unbounded.label source room guard).InRange ↔
      ∀ text, ¬ Unbounded.Overflows source room guard.alternatives text :=
    Unbounded.inRange_label.trans (Unbounded.inRange_text_iff least high small)
  refine ⟨inRange, fun holds => ?_, ?_⟩
  · rw [Unbounded.label_eq, signed]
    exact Unbounded.Worked.outcome_of_inRange holds
  · rw [Unbounded.label_eq_outOfRange_iff, signed, inRange]
    push Not
    rfl

/-- With the greatest room, the first of two alternatives has just the three bytes that keep the sum in range. -/
theorem label_overflows_iff_greatest :
    let room : Nat := 9223372036854775807
    let guard : Guard := ⟨[.selector {} (.ident {} "s") "a", .ident {} "b"], false⟩
    guardBytes "" guard.alternatives < Nat.pow 2 62 ∧ (Unbounded.label "" room guard).result = .ok "[s.ab]" ∧
      label "" room guard = .ok "[s.ab]" := by
  intro room guard
  have small : guardBytes "" guard.alternatives < Nat.pow 2 62 := by decide
  have unbounded : (Unbounded.label "" room guard).result = .ok "[s.ab]" := by decide +kernel
  obtain ⟨inRange, same, -⟩ := label_overflows_iff "" room guard (by decide) (by decide) small
  refine ⟨small, unbounded, unbounded ▸ same (inRange.2 fun text => ?_)⟩
  rintro ⟨first, second, rest, part, isGuard, isText, -, exceeds⟩
  obtain ⟨rfl, -⟩ := List.cons.inj isGuard
  have form : (Unbounded.alternativeText "" (.selector {} (.ident {} "s") "a") room).result = .ok "s.a" := by
    decide +kernel
  rw [form] at isText
  obtain rfl := Except.ok.inj isText
  revert exceeds
  decide +kernel

/-- With the greatest room, there is no label of two alternatives although there is room for both. -/
theorem greatest_room_fails :
    let guard : Guard := ⟨[.ident {} "a", .ident {} "b"], false⟩
    (Unbounded.label "" 9223372036854775807 guard).result = .ok "[ab]" ∧
    label "" 9223372036854775807 guard = .error .outOfRange ∧
    ¬ ∀ (source : String) (room : Nat) (guard : Guard), 4 ≤ room → (room : Int) ≤ Int64.maxValue.toInt →
      guard.alternatives ≠ [] → guardBytes source guard.alternatives < Nat.pow 2 62 →
        label source room guard = (Unbounded.label source room guard).result := by
  intro guard
  have unbounded : (Unbounded.label "" 9223372036854775807 guard).result = .ok "[ab]" := by decide +kernel
  have failed : label "" 9223372036854775807 guard = .error .outOfRange := by decide +kernel
  refine ⟨unbounded, failed, fun same => ?_⟩
  have differs := same "" 9223372036854775807 guard (by decide) (by decide) (List.cons_ne_nil _ _) (by decide)
  rw [failed] at differs
  exact absurd (differs.trans unbounded) (by decide)

end StepChart.Guard
