import StepChart.Diagram
import StepChart.Proofs.Naming.Slots

/-!
# Aliases of nodes

An alias is made of two numbers, each with zeros before it up to a width and none beyond that width, and of a letter
between them. Numbers are read back off their digits whatever zeros stand before them, and no digit is an underscore,
so different nodes have different aliases (`Node.alias_injective`).
-/

namespace StepChart

theorem toList_padded (width number : Nat) :
    (padded width number).toList =
      List.replicate (width - (toString number).length) '0' ++ (toString number).toList := by
  simp only [padded, String.toList_append, String.toList_ofList]

theorem isDigit_of_mem_padded {width number : Nat} {c : Char} (member : c ∈ (padded width number).toList) :
    c.isDigit = true := by
  rw [toList_padded] at member
  rcases List.mem_append.1 member with zero | digit
  · rw [List.eq_of_mem_replicate zero]
    rfl
  · exact isDigit_of_mem_toString digit

/-- Zeros before a number do not change it. -/
theorem ofDigitChars_replicate_zero (count : Nat) (digits : List Char) :
    Nat.ofDigitChars 10 (List.replicate count '0' ++ digits) 0 = Nat.ofDigitChars 10 digits 0 := by
  induction count with
  | zero => rfl
  | succ count ih => rwa [List.replicate_succ, List.cons_append, Nat.ofDigitChars_cons]

theorem ofDigitChars_padded (width number : Nat) : Nat.ofDigitChars 10 (padded width number).toList 0 = number := by
  rw [toList_padded, ofDigitChars_replicate_zero, Nat.toString_eq_repr, Nat.toList_repr, Nat.ofDigitChars_ten_toDigits]

theorem padded_inj {width first second : Nat} (same : (padded width first).toList = (padded width second).toList) :
    first = second := by
  rw [← ofDigitChars_padded width first, same, ofDigitChars_padded]

/-- Digits end where an underscore stands. -/
theorem padded_append_inj {width first second : Nat} {rest others : List Char}
    (same : (padded width first).toList ++ '_' :: rest = (padded width second).toList ++ '_' :: others) :
    first = second ∧ rest = others := by
  have digits : ∀ (number : Nat) (more : List Char),
      ((padded width number).toList ++ '_' :: more).takeWhile Char.isDigit = (padded width number).toList := by
    intro number more
    rw [List.takeWhile_append_of_pos fun c member => isDigit_of_mem_padded member,
      List.takeWhile_cons_of_neg (by decide), List.append_nil]
  have number : (padded width first).toList = (padded width second).toList := by
    rw [← digits first rest, same, digits]
  rw [number] at same
  exact ⟨padded_inj number, List.tail_eq_of_cons_eq (List.append_cancel_left same)⟩

theorem Node.toList_alias (node : Node) :
    node.alias.toList = 'T' :: ((padded 2 node.machine).toList ++
      '_' :: (if node.known then 'S' else 'U') :: (padded 3 node.number).toList) := by
  unfold Node.alias
  cases node.known <;> simp [String.toList_append]

/-- **Different nodes have different aliases.** -/
theorem Node.alias_injective : Function.Injective Node.alias := by
  intro first second same
  have texts := congrArg String.toList same
  rw [Node.toList_alias, Node.toList_alias] at texts
  obtain ⟨machine, rest⟩ := padded_append_inj (List.tail_eq_of_cons_eq texts)
  obtain ⟨letter, digits⟩ := List.cons_eq_cons.1 rest
  have known : first.known = second.known := by
    revert letter
    cases first.known <;> cases second.known <;> decide
  cases first
  cases second
  simp only [Node.mk.injEq]
  exact ⟨machine, known, padded_inj digits⟩

end StepChart
