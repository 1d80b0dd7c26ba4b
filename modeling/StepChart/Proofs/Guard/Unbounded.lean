import StepChart.Guard.Label
import StepChart.Proofs.Guard.Layout

/-!
# Labels over unbounded numbers

The room for a label is a signed 64-bit number: it is taken off, compared and added to, and there is no label if a number
on the way is out of range. Here the same is worked out without a range, and every sum and difference is noted instead of
checked. If all of them are in range the labels are the same, and if one is not, there is no label
(`Unbounded.label_eq`): a check stops what comes after it, and numbers are noted in the order in which they are checked.
-/

namespace StepChart.Guard

open Syntax

namespace Unbounded

/-- What was worked out, and the sums and differences that came up on the way. -/
structure Worked (α : Type) where
  result : α
  numbers : List Int := []

instance : Monad Worked where
  pure result := { result }
  bind worked next := ⟨(next worked.result).result, worked.numbers ++ (next worked.result).numbers⟩

/-- A sum or a difference comes up. -/
def note (number : Int) : Worked Int := ⟨number, [number]⟩

/-! ## Forms and labels -/

mutual

/-- The form of an expression in about `room` bytes. -/
def shorten : Expr → (room : Int) → Worked String
  | .selector _ operand field, room =>
    if room ≤ bytes field then return "(...)." ++ field
    else do
      let left ← note (room - bytes field)
      let form ← shorten operand (← note (left - 1))
      return form ++ "." ++ field
  | .ident _ name, _ => return name
  | .call _ function _, room => do
    let form ← shorten function (← note (room - 2))
    return form ++ "()"
  | .literal _ text, _ => return text
  | .func .., _ => return "func()\x7b\x7d"
  | .composite _ type _, room => do
    let form ← shortenType type room
    return form ++ "\x7b\x7d"
  | .paren _ inner, room => do
    let form ← shorten inner (← note (room - 2))
    return "(" ++ form ++ ")"
  | .index _ operand _, room => do
    let form ← shorten operand (← note (room - 2))
    return form ++ "[]"
  | .slice _ operand, room => do
    let form ← shorten operand (← note (room - 2))
    return form ++ "[]"
  | .typeAssert _ operand _, room => shorten operand room
  | .star _ operand, room => shorten operand room
  | .unary _ .complement operand, room => do
    let form ← shorten operand (← note (room - 1))
    return "^" ++ form
  | .unary _ .not operand, room => do
    let form ← shorten operand (← note (room - 1))
    return "!" ++ form
  | .unary _ _ operand, room => shorten operand room
  | .binary _ op left right, room => do
    let rightRoom ← note (room - 1)
    let last ← shorten right (← note (rightRoom - bytes op))
    let tail := op ++ last
    if room ≤ bytes tail then return "..." ++ tail
    else
      let form ← shorten left (← note (room - bytes tail))
      return form ++ tail
  | .keyValue .., _ => return "(...)"
  | .other _, _ => return "(...)"

/-- The form of the type of a literal, which leaves room for the braces; it may be left out. -/
def shortenType : Option Expr → (room : Int) → Worked String
  | none, _ => return ""
  | some type, room => do shorten type (← note (room - 2))

end

/-- The form of one alternative; an empty form is replaced by an excerpt of the source. -/
def alternativeText (source : String) (alternative : Expr) (room : Int) : Worked (Except LabelError String) := do
  let short ← shorten alternative room
  return if short.isEmpty then (excerpt source alternative.span room.toNat).mapError .noExcerpt else .ok short

/-- Adds the forms of further alternatives to a label as long as there is room; dots stand for the others. -/
def extend (source : String) (room : Int) (label : String) : List Expr → Worked (Except LabelError String)
  | [] => return .ok label
  | alternative :: rest => do
    let remaining ← note (room - bytes label)
    if 3 < remaining then
      match ← alternativeText source alternative remaining with
      | .error fault => return .error fault
      | .ok part =>
        let most ← note (remaining + 3)
        if bytes part < most then extend source room (label ++ part) rest else return .ok (label ++ "...")
    else return .ok (label ++ "...")

/-- The text of a label before it is quoted. -/
def text (source : String) (room : Int) : List Expr → Worked (Except LabelError String)
  | [] => return .ok ""
  | first :: rest => do
    match ← alternativeText source first room with
    | .error fault => return .error fault
    | .ok label => extend source room label rest

/-- The label of a guard for about `room` bytes of text. -/
def label (source : String) (room : Int) (guard : Guard) : Worked (Except LabelError String) :=
  match guard.alternatives with
  | [] => return .ok ""
  | alternatives => do
    let unquoted ← text source room alternatives
    return unquoted.map (bracket guard.inverted)

/-! ## Numbers in range -/

namespace Worked

variable {α β : Type}

/-- The numbers that came up are all in range. -/
def InRange (worked : Worked α) : Prop := ∀ number ∈ worked.numbers, Fits number

instance (worked : Worked α) : Decidable worked.InRange := inferInstanceAs (Decidable (∀ _ ∈ _, _))

@[simp] theorem result_pure (result : α) : (pure result : Worked α).result = result := rfl

@[simp] theorem result_bind (worked : Worked α) (next : α → Worked β) :
    (worked >>= next).result = (next worked.result).result := rfl

@[simp] theorem result_note (number : Int) : (note number).result = number := rfl

@[simp] theorem inRange_pure (result : α) : (pure result : Worked α).InRange := List.forall_mem_nil _

@[simp] theorem inRange_bind (worked : Worked α) (next : α → Worked β) :
    (worked >>= next).InRange ↔ worked.InRange ∧ (next worked.result).InRange := List.forall_mem_append

@[simp] theorem inRange_note (number : Int) : (note number).InRange ↔ Fits number := List.forall_mem_singleton

/-! ## Checks instead of notes -/

/-- What was worked out, unless a number is out of range. -/
def checked (worked : Worked α) : Except LabelError α :=
  if worked.InRange then .ok worked.result else .error .outOfRange

/-- The answer that was worked out, unless a number is out of range. -/
def outcome (worked : Worked (Except LabelError α)) : Except LabelError α := worked.checked >>= id

theorem checked_eq_ok_iff {worked : Worked α} {result : α} :
    worked.checked = .ok result ↔ worked.InRange ∧ worked.result = result := by
  unfold checked
  split <;> simp [*]

theorem checked_pure (result : α) : (pure result : Worked α).checked = pure result := if_pos (inRange_pure result)

theorem checked_note (number : Int) : (note number).checked = Guard.checked number := by
  unfold checked Guard.checked
  simp only [inRange_note, result_note]

theorem checked_bind (worked : Worked α) (next : α → Worked β) :
    (worked >>= next).checked = worked.checked >>= fun result => (next result).checked := by
  unfold checked
  simp only [inRange_bind, result_bind]
  by_cases inRange : worked.InRange
  · simp only [inRange, true_and, if_true]
    rfl
  · simp only [inRange, false_and, if_false]
    rfl

theorem outcome_pure (answer : Except LabelError α) : (pure answer : Worked _).outcome = answer := by
  rw [outcome, checked_pure, pure_bind, id]

theorem outcome_bind (worked : Worked α) (next : α → Worked (Except LabelError β)) :
    (worked >>= next).outcome = worked.checked >>= fun result => (next result).outcome := by
  simp only [outcome, checked_bind, bind_assoc]

/-- An answer that is worked on with. -/
theorem outcome_bind_answer (worked : Worked (Except LabelError α)) (next : Except LabelError α → Worked (Except LabelError β))
    (stops : ∀ fault, next (.error fault) = pure (.error fault)) :
    (worked >>= next).outcome = worked.outcome >>= fun result => (next (.ok result)).outcome := by
  rw [outcome_bind, outcome, bind_assoc]
  congr 1
  funext answer
  cases answer with
  | error fault =>
    rw [stops, outcome_pure]
    rfl
  | ok result => rfl

theorem outcome_of_inRange {worked : Worked (Except LabelError α)} (inRange : worked.InRange) :
    worked.outcome = worked.result := by
  rw [outcome, checked, if_pos inRange]
  rfl

theorem outcome_of_not_inRange {worked : Worked (Except LabelError α)} (outOfRange : ¬ worked.InRange) :
    worked.outcome = .error .outOfRange := by
  rw [outcome, checked, if_neg outOfRange]
  rfl

end Worked

/-! ## Forms by layout -/

open Worked

section Layout

variable {expr inner : Expr} {form before after : String}

theorem shorten_of_fixed (isFixed : Fixed expr form) (room : Int) : shorten expr room = pure form := by
  cases isFixed <;> rfl

theorem result_of_wraps (wraps : Wraps expr inner before after) (room : Int) :
    (shorten expr room).result = before ++ (shorten inner (room - Wraps.taken before after)).result ++ after := by
  have untouched : room - (Wraps.taken "" "" : Int) = room := Int.sub_zero room
  cases wraps with
  | typeAssert | star =>
    rw [untouched, String.empty_append, String.append_empty]
    rfl
  | @sign _ op _ notComplement notNot =>
    rw [untouched, String.empty_append, String.append_empty]
    cases op with
    | complement => exact absurd rfl notComplement
    | not => exact absurd rfl notNot
    | _ => rfl
  | paren => rfl
  | call | composite | index | slice =>
    rw [String.empty_append]
    rfl
  | complement | not =>
    rw [String.append_empty]
    rfl

/-- The numbers of a form that signs are written around. -/
theorem inRange_signs (number : Int) (inner : Expr) (signs : String → String) :
    (do return signs (← shorten inner (← note number)) : Worked String).InRange ↔
      Fits number ∧ (shorten inner number).InRange := by
  simp only [inRange_bind, inRange_note, result_note, inRange_pure, and_true]

theorem inRange_of_wraps (wraps : Wraps expr inner before after) {room : Int} (fits : Fits room) :
    (shorten expr room).InRange ↔
      Fits (room - Wraps.taken before after) ∧ (shorten inner (room - Wraps.taken before after)).InRange := by
  have untouched : room - (Wraps.taken "" "" : Int) = room := Int.sub_zero room
  cases wraps with
  | typeAssert | star =>
    rw [untouched, and_iff_right fits]
    rfl
  | @sign _ op _ notComplement notNot =>
    rw [untouched, and_iff_right fits]
    cases op with
    | complement => exact absurd rfl notComplement
    | not => exact absurd rfl notNot
    | _ => rfl
  | call | paren | index | slice => exact inRange_signs (room - 2) inner _
  | complement | not => exact inRange_signs (room - 1) inner _
  | composite =>
    have typed : (shortenType (some inner) room).InRange ↔ Fits (room - 2) ∧ (shorten inner (room - 2)).InRange :=
      (inRange_bind _ _).trans (and_congr_left fun _ => inRange_note _)
    exact (inRange_bind _ _).trans ((and_iff_left (inRange_pure _)).trans typed)

end Layout

section Operators

variable (span : Span) (room : Int)

/-! Selectors and operators compute. -/

theorem shorten_selector (operand : Expr) (field : String) :
    shorten (.selector span operand field) room =
      if room ≤ bytes field then pure ("(...)." ++ field)
      else do
        let left ← note (room - bytes field)
        let form ← shorten operand (← note (left - 1))
        return form ++ "." ++ field := rfl

theorem shorten_binary (op : String) (left right : Expr) :
    shorten (.binary span op left right) room = do
      let rightRoom ← note (room - 1)
      let last ← shorten right (← note (rightRoom - bytes op))
      let tail := op ++ last
      if room ≤ bytes tail then return "..." ++ tail
      else
        let form ← shorten left (← note (room - bytes tail))
        return form ++ tail := rfl

theorem result_selector (operand : Expr) (field : String) :
    (shorten (.selector span operand field) room).result =
      if room ≤ bytes field then "(...)." ++ field
      else (shorten operand (room - bytes field - 1)).result ++ "." ++ field := by
  rw [shorten_selector]
  split <;> rfl

theorem inRange_selector (operand : Expr) (field : String) :
    (shorten (.selector span operand field) room).InRange ↔ (bytes field < room →
      Fits (room - bytes field) ∧ Fits (room - bytes field - 1) ∧ (shorten operand (room - bytes field - 1)).InRange) := by
  rw [shorten_selector]
  split
  · next small => simp [Int.not_lt.2 small]
  · next large => simp [Int.not_le.1 large]

/-- What an operator is followed by. -/
def tailOf (op : String) (right : Expr) (room : Int) : String := op ++ (shorten right (room - 1 - bytes op)).result

theorem result_binary (op : String) (left right : Expr) :
    (shorten (.binary span op left right) room).result =
      if room ≤ bytes (tailOf op right room) then "..." ++ tailOf op right room
      else (shorten left (room - bytes (tailOf op right room))).result ++ tailOf op right room := by
  rw [shorten_binary]
  simp only [result_bind, result_note]
  unfold tailOf
  split <;> rfl

theorem inRange_binary (op : String) (left right : Expr) :
    (shorten (.binary span op left right) room).InRange ↔
      Fits (room - 1) ∧ Fits (room - 1 - bytes op) ∧ (shorten right (room - 1 - bytes op)).InRange ∧
        (bytes (tailOf op right room) < room → Fits (room - bytes (tailOf op right room)) ∧
          (shorten left (room - bytes (tailOf op right room))).InRange) := by
  rw [shorten_binary]
  simp only [inRange_bind, inRange_note, result_note]
  unfold tailOf
  refine and_congr_right fun _ => and_congr_right fun _ => and_congr_right fun _ => ?_
  split
  · next small => simp [Int.not_lt.2 small]
  · next large => simp [Int.not_le.1 large]

end Operators

/-! ## Labels by alternative -/

section Alternatives

variable {source label : String} {room : Int} {alternative : Expr} {rest : List Expr}

theorem inRange_alternativeText_iff :
    (alternativeText source alternative room).InRange ↔ (shorten alternative room).InRange := by
  rw [alternativeText, inRange_bind]
  exact and_iff_left (inRange_pure _)

/-- The numbers of a label that goes on: the room that is left, those of the next form, and the sum that its bytes are
compared with. -/
theorem inRange_extend_cons :
    (extend source room label (alternative :: rest)).InRange ↔ Fits (room - bytes label) ∧ (3 < room - bytes label →
      (alternativeText source alternative (room - bytes label)).InRange ∧
        ∀ part, (alternativeText source alternative (room - bytes label)).result = .ok part →
          Fits (room - bytes label + 3) ∧
            (bytes part < room - bytes label + 3 → (extend source room (label ++ part) rest).InRange)) := by
  rw [extend, inRange_bind, inRange_note, result_note]
  refine and_congr_right fun _ => ?_
  split
  · next roomy =>
    rw [inRange_bind]
    simp only [roomy, forall_const]
    refine and_congr_right fun _ => ?_
    cases (alternativeText source alternative (room - bytes label)).result with
    | error fault => simp
    | ok part =>
      simp only [inRange_bind, inRange_note, result_note, Except.ok.injEq, forall_eq']
      refine and_congr_right fun _ => ?_
      by_cases isShort : bytes part < room - bytes label + 3 <;> simp [isShort]
  · next noRoom => simp [noRoom]

theorem inRange_text_cons {first : Expr} :
    (text source room (first :: rest)).InRange ↔ (alternativeText source first room).InRange ∧
      ∀ label, (alternativeText source first room).result = .ok label → (extend source room label rest).InRange := by
  rw [text, inRange_bind]
  refine and_congr_right fun _ => ?_
  cases (alternativeText source first room).result with
  | error fault => simp
  | ok label => simp

/-! No number is out of range before it is checked. -/

theorem result_alternativeText_ne : (alternativeText source alternative room).result ≠ .error .outOfRange := by
  simp only [alternativeText, result_bind, result_pure]
  split
  · cases excerpt source alternative.span room.toNat <;> nofun
  · nofun

theorem result_extend_ne (alternatives : List Expr) :
    (extend source room label alternatives).result ≠ .error .outOfRange := by
  induction alternatives generalizing label with
  | nil => nofun
  | cons alternative rest ih =>
    rw [extend, result_bind, result_note]
    split
    · rw [result_bind]
      have next := @result_alternativeText_ne source (room - bytes label) alternative
      cases isNext : (alternativeText source alternative (room - bytes label)).result with
      | error fault =>
        rw [isNext] at next
        exact next
      | ok part =>
        rw [result_bind]
        split
        · exact ih
        · nofun
    · nofun

theorem result_text_ne (alternatives : List Expr) : (text source room alternatives).result ≠ .error .outOfRange := by
  cases alternatives with
  | nil => nofun
  | cons first rest =>
    rw [text, result_bind]
    have start := @result_alternativeText_ne source room first
    cases isStart : (alternativeText source first room).result with
    | error fault =>
      rw [isStart] at start
      exact start
    | ok label => exact result_extend_ne rest

theorem result_label_ne {guard : Guard} : (Unbounded.label source room guard).result ≠ .error .outOfRange := by
  obtain ⟨alternatives, inverted⟩ := guard
  cases alternatives with
  | nil => nofun
  | cons first rest =>
    rw [Unbounded.label]
    dsimp only
    rw [result_bind, result_pure]
    have unquoted := @result_text_ne source room (first :: rest)
    cases isText : (text source room (first :: rest)).result with
    | error fault =>
      intro failed
      cases failed
      exact unquoted isText
    | ok text => nofun

end Alternatives

/-! ## The same labels in range -/

mutual

/-- Forms are the same as long as all numbers are in range, and there is none if one is not. -/
theorem shorten_eq : (expr : Expr) → (room : Int) → Guard.shorten expr room = (shorten expr room).checked
  | .selector _ operand field, room => by
    rw [Guard.shorten, shorten]
    split
    · rfl
    · simp only [checked_bind, checked_note, checked_pure, shorten_eq operand]
  | .ident .., _ | .literal .., _ | .func .., _ | .keyValue .., _ | .other _, _ => rfl
  | .call _ inner _, _ | .paren _ inner, _ | .index _ inner _, _ | .slice _ inner, _ => by
    simp only [Guard.shorten, shorten, checked_bind, checked_note, checked_pure, shorten_eq inner]
  | .composite _ type _, _ => by
    simp only [Guard.shorten, shorten, checked_bind, checked_pure, shortenType_eq type]
  | .typeAssert _ operand _, room | .star _ operand, room => shorten_eq operand room
  | .unary _ op operand, room => by
    cases op with
    | complement | not =>
      simp only [Guard.shorten, shorten, checked_bind, checked_note, checked_pure, shorten_eq operand]
    | address | negate | plus | receive => exact shorten_eq operand room
  | .binary _ op left right, room => by
    simp only [Guard.shorten, shorten, checked_bind, checked_note, shorten_eq right]
    congr 1
    funext rightRoom
    congr 1
    funext lastRoom
    congr 1
    funext last
    split
    · rfl
    · simp only [checked_bind, checked_note, checked_pure, shorten_eq left]

theorem shortenType_eq : (type : Option Expr) → (room : Int) →
    Guard.shortenType type room = (shortenType type room).checked
  | none, _ => rfl
  | some type, _ => by simp only [Guard.shortenType, shortenType, checked_bind, checked_note, shorten_eq type]

end

theorem alternativeText_eq (source : String) (alternative : Expr) (room : Int) :
    Guard.alternativeText source alternative room = (alternativeText source alternative room).outcome := by
  rw [Guard.alternativeText, alternativeText, outcome_bind, shorten_eq]
  rfl

theorem extend_eq (source : String) (room : Int) (label : String) (alternatives : List Expr) :
    Guard.extend source room label alternatives = (extend source room label alternatives).outcome := by
  induction alternatives generalizing label with
  | nil => rfl
  | cons alternative rest ih =>
    rw [Guard.extend, extend, outcome_bind, checked_note]
    congr 1
    funext remaining
    split
    · rw [alternativeText_eq, outcome_bind_answer]
      · congr 1
        funext part
        rw [outcome_bind, checked_note]
        congr 1
        funext most
        split
        · exact ih _
        · rfl
      · exact fun _ => rfl
    · rfl

theorem text_eq (source : String) (room : Int) (alternatives : List Expr) :
    Guard.text source room alternatives = (text source room alternatives).outcome := by
  cases alternatives with
  | nil => rfl
  | cons first rest =>
    rw [Guard.text, text, alternativeText_eq, outcome_bind_answer]
    · congr 1
      funext label
      exact extend_eq source room label rest
    · exact fun _ => rfl

theorem inRange_label {source : String} {room : Int} {guard : Guard} :
    (label source room guard).InRange ↔ (text source room guard.alternatives).InRange := by
  obtain ⟨alternatives, inverted⟩ := guard
  cases alternatives with
  | nil => exact Iff.rfl
  | cons first rest => exact (inRange_bind _ _).trans (and_iff_left (inRange_pure _))

/-- **Labels are those of unbounded numbers as long as no number is out of range, and there is none if one is.** -/
theorem label_eq (source : String) (room : Nat) (guard : Guard) :
    Guard.label source room guard = (label source (signedRoom room) guard).outcome := by
  obtain ⟨alternatives, inverted⟩ := guard
  cases alternatives with
  | nil => rfl
  | cons first rest =>
    rw [Guard.label, label]
    dsimp only
    rw [outcome_bind, text_eq, outcome]
    cases (text source (signedRoom room) (first :: rest)).checked with
    | error fault => rfl
    | ok unquoted => exact (outcome_pure _).symm

/-- A label is missing because of a number exactly if one is out of range. -/
theorem label_eq_outOfRange_iff {source : String} {room : Nat} {guard : Guard} :
    Guard.label source room guard = .error .outOfRange ↔ ¬ (label source (signedRoom room) guard).InRange := by
  rw [label_eq]
  refine ⟨fun failed inRange => ?_, outcome_of_not_inRange⟩
  rw [outcome_of_inRange inRange] at failed
  exact result_label_ne failed

end Unbounded

end StepChart.Guard
