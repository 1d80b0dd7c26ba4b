import Mathlib.Data.List.Basic
import StepChart.Text.Search

/-!
# Lists in texts

A list is written with `, ` between its elements, and read again by cutting the text there. Only the elements must not
hold the separator: where an element and the separator after it meet, no other separator comes about, since a
separator does not end as it starts (`pieces_intercalate`).
-/

namespace StepChart.Text

theorem occursIn_iff {part text : List Char} : occursIn part text = true ↔ part <:+: text := by
  induction text with
  | nil => rw [occursIn, List.isEmpty_iff, List.infix_nil]
  | cons c cs ih => rw [occursIn, Bool.or_eq_true, ih, List.isPrefixOf_iff_prefix, List.infix_cons_iff]

/-! ## Joining -/

theorem intercalate_concat (separator : String) {texts : List String} (some : texts ≠ []) (more : String) :
    separator.intercalate (texts ++ [more]) = separator.intercalate texts ++ separator ++ more := by
  rw [String.intercalate_append_of_ne_nil some (List.cons_ne_nil more []), String.intercalate_singleton]

theorem intercalate_ne_empty (separator : String) {texts : List String} (some : texts ≠ [])
    (filled : ∀ text ∈ texts, text ≠ "") : separator.intercalate texts ≠ "" := by
  rcases List.eq_nil_or_concat' texts with rfl | ⟨front, last, rfl⟩
  · exact absurd rfl some
  · have lastFilled := filled last (by simp)
    cases front with
    | nil => rwa [List.nil_append, String.intercalate_singleton]
    | cons first front =>
      rw [intercalate_concat separator (List.cons_ne_nil first front)]
      simp [lastFilled]

/-! ## Cutting -/

/-- What stands between the separators `, ` of a text. -/
def cut : List Char → List (List Char)
  | [] => [[]]
  | ',' :: ' ' :: rest => [] :: cut rest
  | c :: rest => (cut rest).modifyHead (c :: ·)

/-- The elements of a list that is written with `, ` between them; nothing is written for the empty one. -/
def pieces (text : String) : List String :=
  if text.isEmpty then [] else (cut text.toList).map String.ofList

/-- No separator stands in the text. -/
def Apart (part : List Char) : Prop := ¬ ", ".toList <:+: part

theorem apart_iff {part : List Char} : Apart part ↔ occursIn ", ".toList part = false := by
  rw [Apart, ← occursIn_iff, Bool.not_eq_true]

instance (part : List Char) : Decidable (Apart part) := decidable_of_iff' _ apart_iff

theorem apart_cons_iff {c : Char} {part : List Char} :
    Apart (c :: part) ↔ ¬ [',', ' '] <+: c :: part ∧ Apart part := by
  unfold Apart
  rw [List.infix_cons_iff, not_or]
  rfl

theorem cut_cons {c : Char} {rest : List Char} (inside : ¬ [',', ' '] <+: c :: rest) :
    cut (c :: rest) = (cut rest).modifyHead (c :: ·) := by
  rw [cut]
  rintro rest rfl rfl
  exact inside ⟨rest, rfl⟩

theorem cut_of_apart {part : List Char} (apart : Apart part) : cut part = [part] := by
  induction part with
  | nil => rfl
  | cons c part ih =>
    obtain ⟨inside, apart⟩ := apart_cons_iff.1 apart
    rw [cut_cons inside, ih apart]
    rfl

theorem cut_append {part : List Char} (apart : Apart part) (rest : List Char) :
    cut (part ++ ',' :: ' ' :: rest) = part :: cut rest := by
  induction part with
  | nil => rfl
  | cons c part ih =>
    obtain ⟨inside, apart⟩ := apart_cons_iff.1 apart
    have insideAll : ¬ [',', ' '] <+: c :: (part ++ ',' :: ' ' :: rest) := by
      rintro ⟨after, starts⟩
      obtain ⟨rfl, blank⟩ := List.cons.inj starts
      -- The blank is the next character of the part, or it would be the comma after it.
      cases part with
      | nil => exact absurd (List.cons.inj blank).1 (by decide)
      | cons d part =>
        obtain ⟨rfl, -⟩ := List.cons.inj blank
        exact inside ⟨part, rfl⟩
    rw [List.cons_append, cut_cons insideAll, ih apart]
    rfl

theorem cut_intercalate {first : String} {texts : List String} (apart : ∀ text ∈ first :: texts, Apart text.toList) :
    cut (", ".intercalate (first :: texts)).toList = (first :: texts).map String.toList := by
  induction texts generalizing first with
  | nil => exact cut_of_apart (apart first List.mem_cons_self)
  | cons second texts ih =>
    obtain ⟨apartFirst, apartTexts⟩ := List.forall_mem_cons.1 apart
    have split : (", ".intercalate (first :: second :: texts)).toList =
        first.toList ++ ',' :: ' ' :: (", ".intercalate (second :: texts)).toList := by
      simp [String.intercalate_cons_cons]
    rw [split, cut_append apartFirst, ih apartTexts, List.map_cons (l := second :: texts)]

/-- **What is written is read.** -/
theorem pieces_intercalate {texts : List String} (filled : ∀ text ∈ texts, text ≠ "")
    (apart : ∀ text ∈ texts, Apart text.toList) : pieces (", ".intercalate texts) = texts := by
  unfold pieces
  cases texts with
  | nil => rfl
  | cons first texts =>
    have some := intercalate_ne_empty ", " (List.cons_ne_nil first texts) filled
    rw [if_neg (by simpa using some), cut_intercalate apart, List.map_map]
    exact List.map_id'' (fun _ => String.ofList_toList) _

end StepChart.Text
