import StepChart.Proofs.Guard.Unbounded

/-!
# Bytes of forms

Forms only take bytes off the room, and they have at most two bytes for each byte of the text (`bytes_shorten`); one that
is not whole exceeds the room it was made for (`shorten_exceeds`). The numbers of a form stay in range unless the room
is lower than the text can take it (`inRange_shorten`).
-/

namespace StepChart.Guard

open Syntax

/-! ## Bytes of texts -/

mutual

/-- Bytes that the text of an expression has at least; what no form shows (arguments, elements, bodies and the like) does
not count. A name, a literal and an operator have one byte or more, and syntax without a meaning for the analysis is
at least as long as the type `[]T`. -/
def leastBytes : Expr → Nat
  | .ident _ text | .literal _ text => max 1 text.utf8ByteSize
  | .selector _ operand field => leastBytes operand + 1 + max 1 field.utf8ByteSize
  | .call _ function _ => leastBytes function + 2
  | .composite _ type _ => leastTypeBytes type + 2
  | .keyValue _ key value => leastBytes key + 1 + leastBytes value
  | .unary _ op operand => op.token.utf8ByteSize + leastBytes operand
  | .binary _ op left right => leastBytes left + max 1 op.utf8ByteSize + leastBytes right
  | .star _ operand => 1 + leastBytes operand
  | .paren _ inner => leastBytes inner + 2
  | .index _ operand _ => leastBytes operand + 2
  | .slice _ operand => leastBytes operand + 3
  | .typeAssert _ operand _ => leastBytes operand + 3
  | .func .. => 8
  | .other _ => 3

/-- Bytes that the text of a type has at least, if there is one. -/
def leastTypeBytes : Option Expr → Nat
  | none => 0
  | some type => leastBytes type

end

namespace Unbounded

/-! ## Bytes of forms -/

theorem bytes_append (first second : String) : bytes (first ++ second) = bytes first + bytes second := by
  unfold bytes
  rw [String.utf8ByteSize_append]
  exact Int.natCast_add _ _

theorem bytes_nonneg (text : String) : 0 ≤ bytes text := Int.natCast_nonneg _

theorem bytes_eq (text : String) : bytes text = text.utf8ByteSize := rfl

theorem bytes_tailOf (op : String) (right : Expr) (room : Int) :
    bytes (tailOf op right room) = bytes op + bytes (shorten right (room - 1 - bytes op)).result :=
  bytes_append _ _

theorem taken_eq (before after : String) : (Wraps.taken before after : Int) = bytes before + bytes after :=
  Int.natCast_add _ _

theorem leastBytes_selector (span : Span) (operand : Expr) (field : String) :
    leastBytes (.selector span operand field) = leastBytes operand + 1 + max 1 field.utf8ByteSize := rfl

theorem leastBytes_binary (span : Span) (op : String) (left right : Expr) :
    leastBytes (.binary span op left right) = leastBytes left + max 1 op.utf8ByteSize + leastBytes right := rfl

theorem leastBytes_pos (expr : Expr) : 0 < leastBytes expr := by
  cases expr with
  | unary span op operand =>
    have written : 0 < op.token.utf8ByteSize := by cases op <;> decide
    rw [leastBytes]
    omega
  | _ =>
    rw [leastBytes]
    omega

section Layout

variable {expr inner : Expr} {form before after : String}

theorem bytes_of_fixed (isFixed : Fixed expr form) : bytes form ≤ 2 * leastBytes expr := by
  cases isFixed with
  | ident | literal =>
    rw [leastBytes, bytes]
    omega
  | func | composite | other =>
    rw [leastBytes]
    decide
  | @keyValue span key value =>
    have dots : bytes "(...)" = 5 := rfl
    have keyPos := leastBytes_pos key
    have valuePos := leastBytes_pos value
    rw [leastBytes, dots]
    omega

/-- The signs around a part are among the bytes of the whole. -/
theorem leastBytes_of_wraps (wraps : Wraps expr inner before after) :
    leastBytes inner + Wraps.taken before after ≤ leastBytes expr := by
  have none : Wraps.taken "" "" = 0 := rfl
  have two : Wraps.taken "" "[]" = 2 := rfl
  cases wraps with
  | call | composite | paren | index => exact Nat.le_refl _
  | complement | not => exact Nat.le_of_eq (Nat.add_comm _ 1)
  | slice | typeAssert | star | sign =>
    rw [leastBytes]
    omega

end Layout

/-- A whole form has at most two bytes for each byte of the text. -/
theorem bytes_full (expr : Expr) : bytes (full expr) ≤ 2 * leastBytes expr := by
  induction expr using layout_induction with
  | fixed isFixed =>
    rw [isFixed.full]
    exact bytes_of_fixed isFixed
  | @wrapped expr inner before after wraps ih =>
    have signs := leastBytes_of_wraps wraps
    have taken := taken_eq before after
    rw [wraps.full, bytes_append, bytes_append]
    omega
  | selector span operand field ih =>
    have dot : bytes "." = 1 := rfl
    have fieldBytes := bytes_eq field
    rw [full, bytes_append, bytes_append, dot, leastBytes_selector]
    omega
  | binary span op left right ihLeft ihRight =>
    have opBytes := bytes_eq op
    rw [full, bytes_append, bytes_append, leastBytes_binary]
    omega

/-- A form has at most two bytes for each byte of the text, and one more. -/
theorem bytes_shorten (expr : Expr) (room : Int) : bytes (shorten expr room).result ≤ 2 * leastBytes expr + 1 := by
  induction expr using layout_induction generalizing room with
  | fixed isFixed =>
    rw [shorten_of_fixed isFixed]
    exact Int.le_add_one (bytes_of_fixed isFixed)
  | @wrapped expr inner before after wraps ih =>
    have signs := leastBytes_of_wraps wraps
    have taken := taken_eq before after
    have small := ih (room - Wraps.taken before after)
    rw [result_of_wraps wraps, bytes_append, bytes_append]
    omega
  | selector span operand field ih =>
    have dots : bytes "(...)." = 6 := rfl
    have dot : bytes "." = 1 := rfl
    have fieldBytes := bytes_eq field
    have written := leastBytes_pos operand
    rw [result_selector, leastBytes_selector]
    split
    · rw [bytes_append, dots]
      omega
    · have small := ih (room - bytes field - 1)
      rw [bytes_append, bytes_append, dot]
      omega
  | binary span op left right ihLeft ihRight =>
    have dots : bytes "..." = 3 := rfl
    have opBytes := bytes_eq op
    have written := leastBytes_pos left
    have smallRight := ihRight (room - 1 - bytes op)
    have tail := bytes_tailOf op right room
    rw [result_binary, leastBytes_binary]
    split
    · rw [bytes_append, dots]
      omega
    · have smallLeft := ihLeft (room - bytes (tailOf op right room))
      rw [bytes_append]
      omega

/-- **A form that is not the whole one exceeds its room**, by three bytes or more. -/
theorem shorten_exceeds (expr : Expr) (room : Int) :
    (shorten expr room).result = full expr ∨ room + 3 ≤ bytes (shorten expr room).result := by
  induction expr using layout_induction generalizing room with
  | fixed isFixed =>
    rw [shorten_of_fixed isFixed, isFixed.full]
    exact .inl rfl
  | @wrapped expr inner before after wraps ih =>
    have taken := taken_eq before after
    rw [result_of_wraps wraps, wraps.full]
    obtain whole | exceeds := ih (room - Wraps.taken before after)
    · rw [whole]
      exact .inl rfl
    · right
      rw [bytes_append, bytes_append]
      omega
  | selector span operand field ih =>
    have dots : bytes "(...)." = 6 := rfl
    have dot : bytes "." = 1 := rfl
    rw [result_selector, full]
    split
    next small =>
      right
      rw [bytes_append, dots]
      omega
    next large =>
      obtain whole | exceeds := ih (room - bytes field - 1)
      · rw [whole]
        exact .inl rfl
      · right
        rw [bytes_append, bytes_append, dot]
        omega
  | binary span op left right ihLeft ihRight =>
    have dots : bytes "..." = 3 := rfl
    have tail := bytes_tailOf op right room
    rw [result_binary, full]
    split
    next small =>
      right
      rw [bytes_append, dots]
      omega
    next large =>
      -- A tail that fits is whole: the form in it would exceed its room by more than the byte that is held back.
      have wholeRight : (shorten right (room - 1 - bytes op)).result = full right := by
        refine (ihRight (room - 1 - bytes op)).resolve_right fun exceeds => large ?_
        omega
      obtain wholeLeft | exceeds := ihLeft (room - bytes (tailOf op right room))
      · rw [wholeLeft, tailOf, wholeRight]
        exact .inl rfl
      · right
        rw [bytes_append]
        omega

/-! ## Numbers in range -/

theorem fits_iff {number : Int} : Fits number ↔ -9223372036854775808 ≤ number ∧ number ≤ 9223372036854775807 := by
  rw [Fits, Int64.toInt_minValue, Int64.toInt_maxValue]
  rfl

/-- The numbers of a form are in range if the text is small and the room is not lower than the text can take it. -/
theorem inRange_shorten (expr : Expr) {room : Int} (small : leastBytes expr < Nat.pow 2 62)
    (low : Int64.minValue.toInt + leastBytes expr ≤ room) (high : room ≤ Int64.maxValue.toInt) :
    (shorten expr room).InRange := by
  have lowest : Int64.minValue.toInt = -9223372036854775808 := rfl
  have highest : Int64.maxValue.toInt = 9223372036854775807 := rfl
  have size : Nat.pow 2 62 = 4611686018427387904 := rfl
  induction expr using layout_induction generalizing room with
  | fixed isFixed =>
    rw [shorten_of_fixed isFixed]
    exact Worked.inRange_pure _
  | @wrapped expr inner before after wraps ih =>
    have signs := leastBytes_of_wraps wraps
    rw [inRange_of_wraps wraps ⟨by omega, high⟩]
    exact ⟨⟨by omega, by omega⟩, ih (by omega) (by omega) (by omega)⟩
  | selector span operand field ih =>
    have nonneg := bytes_nonneg field
    have fieldBytes := bytes_eq field
    rw [leastBytes_selector] at small low
    rw [inRange_selector]
    intro roomy
    simp only [fits_iff]
    exact ⟨by omega, by omega, ih (by omega) (by omega) (by omega)⟩
  | binary span op left right ihLeft ihRight =>
    have nonneg := bytes_nonneg (tailOf op right room)
    have opBytes := bytes_eq op
    have written := leastBytes_pos left
    rw [leastBytes_binary] at small low
    rw [inRange_binary]
    simp only [fits_iff]
    refine ⟨by omega, by omega, ihRight (by omega) (by omega) (by omega), fun roomy => ⟨by omega, ?_⟩⟩
    exact ihLeft (by omega) (by omega) (by omega)

end Unbounded

end StepChart.Guard
