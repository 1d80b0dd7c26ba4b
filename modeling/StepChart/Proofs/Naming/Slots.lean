import StepChart.Trace.Outline

/-!
# Names of inner steps

A function literal inside a step is named after the step and its place among the inner steps, and a
subroutine after the step, the machine that runs, and its place. Machines built in place have the name of
their type. The names are told apart by their slots: `slot` reads the place back off a name, also off the
names of steps further inside, since a number is the only thing in a name that begins with a digit.
-/

namespace StepChart

open Syntax Text

/-! ## Numbers -/

theorem isDigit_of_mem_toString {n : Nat} {c : Char} (member : c ∈ (toString n).toList) : c.isDigit = true := by
  rw [Nat.toString_eq_repr, Nat.toList_repr] at member
  exact Nat.isDigit_of_mem_toDigits (by omega) (by omega) member

theorem toList_toString_ne_nil (n : Nat) : (toString n).toList ≠ [] := by
  rw [Nat.toString_eq_repr, Nat.toList_repr]
  exact Nat.toDigits_ne_nil

theorem toList_toString_inj {m n : Nat} (same : (toString m).toList = (toString n).toList) : m = n := by
  rw [Nat.toString_eq_repr, Nat.toString_eq_repr, Nat.toList_repr, Nat.toList_repr] at same
  rw [← Nat.ofDigitChars_ten_toDigits (n := m), same, Nat.ofDigitChars_ten_toDigits]

/-! ## Identifiers -/

/-- A text does not begin with a digit. -/
def undigited (text : String) : Bool := !text.toList.head?.any Char.isDigit

/-- A text is like an identifier, as far as names of steps depend on it: it does not begin with a digit
and has no dot. -/
def isIdentifierLike (text : String) : Bool := undigited text && !text.toList.contains '.'

/-! ## Slots -/

/-- The number that stands first in a text, or else after its last dot. -/
def slot (text : List Char) : List Char :=
  let number := text.takeWhile Char.isDigit
  if number.isEmpty then afterLast '.' text else number

theorem takeWhile_digits (n : Nat) {rest : List Char} (stops : rest = [] ∨ ∃ more, rest = '.' :: more) :
    ((toString n).toList ++ rest).takeWhile Char.isDigit = (toString n).toList := by
  rw [List.takeWhile_append_of_pos fun c member => isDigit_of_mem_toString member]
  have none : rest.takeWhile Char.isDigit = [] := by
    rcases stops with rfl | ⟨more, rfl⟩
    · rfl
    · rfl
  rw [none, List.append_nil]

/-- A text that begins with a number has it as its slot. -/
theorem slot_number (n : Nat) {rest : List Char} (stops : rest = [] ∨ ∃ more, rest = '.' :: more) :
    slot ((toString n).toList ++ rest) = (toString n).toList := by
  unfold slot
  rw [takeWhile_digits n stops]
  simp

/-- A text that begins with something else has the number at its end as its slot. -/
theorem slot_machine {machine : String} (begins : undigited machine = true) (n : Nat) :
    slot (machine.toList ++ '.' :: (toString n).toList) = (toString n).toList := by
  have none : (machine.toList ++ '.' :: (toString n).toList).takeWhile Char.isDigit = [] := by
    cases machine : machine.toList with
    | nil => rfl
    | cons first rest =>
      simp only [undigited, machine, List.head?_cons, Option.any_some, Bool.not_eq_true'] at begins
      rw [List.cons_append, List.takeWhile_cons_of_neg (by simp [begins])]
  have last : afterLast '.' (machine.toList ++ '.' :: (toString n).toList) = (toString n).toList := by
    unfold afterLast
    rw [List.reverse_append, List.reverse_cons, List.append_assoc, List.takeWhile_append_of_pos, List.cons_append,
      List.takeWhile_cons_of_neg (by simp), List.append_nil, List.reverse_reverse]
    intro c member
    have digit := isDigit_of_mem_toString (List.mem_reverse.1 member)
    have other : c ≠ '.' := by
      rintro rfl
      exact absurd digit (by decide)
    simpa using other
  unfold slot
  rw [none]
  exact last

/-- The name belongs to slot `index` of the step `parent`: to the inner step at this place, or to one
inside it. -/
def InSlot (parent : String) (index : Nat) (name : String) : Prop :=
  ∃ rest, name.toList = parent.toList ++ '.' :: rest ∧ slot rest = (toString (index + 1)).toList

/-- A name belongs to one slot. -/
theorem InSlot.unique {parent name : String} {first second : Nat} (inFirst : InSlot parent first name)
    (inSecond : InSlot parent second name) : first = second := by
  obtain ⟨rest, same, number⟩ := inFirst
  obtain ⟨other, sameOther, numberOther⟩ := inSecond
  have rests : rest = other := by
    rw [same] at sameOther
    exact (List.cons.inj (List.append_cancel_left sameOther)).2
  have numbers : first + 1 = second + 1 := toList_toString_inj (by rw [← number, rests, numberOther])
  omega

/-! ## Roles -/

/-- What an inner step was written as. -/
inductive Role where
  /-- A function literal. -/
  | literal
  /-- The call of a subroutine. -/
  | subroutine
  /-- A machine that is built in place. -/
  | built
deriving Repr, DecidableEq, Inhabited

/-- The inner step at place `index` of the step `parent` has this name. -/
def Role.Names (role : Role) (parent : String) (index : Nat) (name : String) : Prop :=
  match role with
  | .literal => name = parent ++ "." ++ toString (index + 1)
  | .subroutine => ∃ machine, undigited machine = true ∧ name = parent ++ "." ++ machine ++ "." ++ toString (index + 1)
  | .built => ∃ type, name = builtName type

namespace Role.Names

variable {role : Role} {parent name : String} {index : Nat}

theorem toList_of_literal (names : literal.Names parent index name) :
    name.toList = parent.toList ++ '.' :: (toString (index + 1)).toList := by
  rw [show name = _ from names]
  simp

/-- The name of a literal, and the names of steps inside it, belong to its slot. -/
theorem inSlot_of_literal (names : literal.Names parent index name) {inner : String} {rest : List Char}
    (within : inner.toList = name.toList ++ rest) (stops : rest = [] ∨ ∃ more, rest = '.' :: more) :
    InSlot parent index inner := by
  refine ⟨(toString (index + 1)).toList ++ rest, ?_, slot_number (index + 1) stops⟩
  rw [within, names.toList_of_literal, List.append_assoc, List.cons_append]

theorem inSlot (names : role.Names parent index name) (numbered : role ≠ .built) : InSlot parent index name := by
  cases role with
  | literal => exact inSlot_of_literal names (List.append_nil _).symm (.inl rfl)
  | subroutine =>
    obtain ⟨machine, begins, rfl⟩ := names
    refine ⟨machine.toList ++ '.' :: (toString (index + 1)).toList, ?_, slot_machine begins (index + 1)⟩
    simp
  | built => exact absurd rfl numbered

/-- Numbered names end in a digit. -/
theorem getLast?_isDigit (names : role.Names parent index name) (numbered : role ≠ .built) :
    ∃ c ∈ name.toList.getLast?, c.isDigit = true := by
  have ends : ∃ front, name.toList = front ++ (toString (index + 1)).toList := by
    cases role with
    | literal => exact ⟨(parent ++ ".").toList, by rw [show name = _ from names, String.toList_append]⟩
    | subroutine =>
      obtain ⟨machine, -, rfl⟩ := names
      exact ⟨(parent ++ "." ++ machine ++ ".").toList, String.toList_append⟩
    | built => exact absurd rfl numbered
  obtain ⟨front, same⟩ := ends
  have found := List.getLast?_eq_some_getLast (toList_toString_ne_nil (index + 1))
  refine ⟨_, ?_, isDigit_of_mem_toString (List.mem_of_getLast? found)⟩
  rw [same, List.getLast?_append, found]
  rfl

end Role.Names

theorem getLast?_builtName (type : Option Expr) : (builtName type).toList.getLast? = some '\x7d' := by
  simp [builtName]

end StepChart
