import Mathlib.Data.List.Basic
import StepChart.Text.Quoted

/-!
# Reading quoted text back

Escaped text holds no control character, and a backslash that is not escaped itself stands before each double quote in
it (`safe_escape`). A reader that goes through it character by character finds the text again and stops at the first
double quote that is not part of it, whatever comes after this quote (`readEscaped_escape`). Both follow from the three
ways in which a character is written, `Written`.
-/

namespace StepChart.Text

/-! ## Escaped characters -/

/-- The character that a mark after a backslash stands for. -/
def marked? (mark : Char) : Option Char :=
  if mark = '"' ∨ mark = '\\' then some mark
  else if mark = 't' then some '\t'
  else if mark = 'n' then some '\n'
  else if mark = 'r' then some '\r'
  else if mark = '0' then some (Char.ofNat 0)
  else none

/-- The marks are these six. -/
theorem mem_of_marked? {mark c : Char} (reads : marked? mark = some c) : mark ∈ ['"', '\\', 't', 'n', 'r', '0'] := by
  unfold marked? at reads
  grind

/-- A character is written as a mark, as its code point, or as itself. -/
inductive Written (c : Char) : List Char → Prop where
  | mark {mark : Char} (reads : marked? mark = some c) : Written c ['\\', mark]
  | codePoint : Written c (codePointEscape c)
  | itself (quote : c ≠ '"') (backslash : c ≠ '\\') (control : isControl c = false) : Written c [c]

theorem written_escapeChar (c : Char) : Written c (escapeChar c) := by
  unfold escapeChar
  split
  next isQuote =>
    subst isQuote
    exact .mark rfl
  next quote =>
  split
  next isBackslash =>
    subst isBackslash
    exact .mark rfl
  next backslash =>
  split
  next isTab =>
    subst isTab
    exact .mark rfl
  next =>
  split
  next isNewline =>
    subst isNewline
    exact .mark rfl
  next =>
  split
  next isReturn =>
    subst isReturn
    exact .mark rfl
  next =>
  split
  next isNull =>
    subst isNull
    exact .mark rfl
  next =>
  split
  next => exact .codePoint
  next printable =>
    have control : isControl c = false := by
      rw [isUnprintable, Bool.or_eq_true, not_or, Bool.not_eq_true] at printable
      exact printable.1
    exact .itself quote backslash control

/-- The value of a hexadecimal digit. -/
def digitValue? (c : Char) : Option Nat :=
  (List.range 16).find? fun digit => Nat.digitChar digit = c

theorem digitValue?_digitChar {digit : Nat} (small : digit < 16) : digitValue? (Nat.digitChar digit) = some digit := by
  revert digit
  decide

/-- A number in hexadecimal digits is one digit, or a digit after the digits of a smaller number. -/
theorem toDigits_cases (number : Nat) :
    number < 16 ∧ Nat.toDigits 16 number = [Nat.digitChar number] ∨
      number / 16 < number ∧ Nat.toDigits 16 number = Nat.toDigits 16 (number / 16) ++ [Nat.digitChar (number % 16)] := by
  rcases Nat.lt_or_ge number 16 with small | large
  · exact .inl ⟨small, Nat.toDigits_of_lt_base small⟩
  · exact .inr ⟨by omega, Nat.toDigits_of_base_le (by decide) large⟩

theorem exists_digit_of_mem_toDigits {number : Nat} {c : Char} (member : c ∈ Nat.toDigits 16 number) :
    ∃ digit < 16, c = Nat.digitChar digit := by
  induction number using Nat.strongRecOn with
  | ind number ih =>
    rcases toDigits_cases number with ⟨small, digits⟩ | ⟨less, digits⟩
    · rw [digits, List.mem_singleton] at member
      exact ⟨number, small, member⟩
    · rw [digits] at member
      rcases List.mem_append.1 member with front | last
      · exact ih (number / 16) less front
      · exact ⟨number % 16, Nat.mod_lt _ (by decide), List.mem_singleton.1 last⟩

/-- The character is neither a control character nor a double quote. -/
def isPlain (c : Char) : Bool :=
  !isControl c && c != '"'

/-- Digits are plain, and none is the end of a code point. -/
theorem isPlain_digitChar {digit : Nat} (small : digit < 16) :
    isPlain (Nat.digitChar digit) = true ∧ Nat.digitChar digit ≠ '\x7d' := by
  revert digit
  decide

/-! ## Safe text -/

/-- The text ends with a backslash that escapes what comes next: one that is not escaped itself. -/
def endsEscaping (text : List Char) : Bool :=
  text.foldl (fun escaping c => decide (c = '\\') && !escaping) false

/-- **Text that can stand between double quotes on one line**: it holds no control character, each double quote in it
stands after its escaping backslash, and it does not escape what comes after it. -/
structure Safe (text : List Char) : Prop where
  controls : ∀ c ∈ text, isControl c = false
  quotes : ∀ before after, text = before ++ '"' :: after → endsEscaping before = true
  ends : endsEscaping text = false

theorem endsEscaping_append {text : List Char} (ends : endsEscaping text = false) (more : List Char) :
    endsEscaping (text ++ more) = endsEscaping more := by
  rw [endsEscaping, List.foldl_append]
  exact congrArg (List.foldl _ · more) ends

theorem endsEscaping_concat (text : List Char) {c : Char} (other : c ≠ '\\') : endsEscaping (text ++ [c]) = false := by
  simp [endsEscaping, List.foldl_append, other]

theorem Safe.append {text more : List Char} (first : Safe text) (second : Safe more) : Safe (text ++ more) := by
  refine ⟨List.forall_mem_append.2 ⟨first.controls, second.controls⟩, ?_,
    (endsEscaping_append first.ends more).trans second.ends⟩
  intro before after split
  rcases List.append_eq_append_iff.1 split with ⟨inner, rfl, tail⟩ | ⟨inner, front, tail⟩
  · rw [endsEscaping_append first.ends]
    exact second.quotes inner after tail
  · cases inner with
    | nil =>
      -- `more` cannot start with a quote: no backslash stands before it there.
      have unescaped : endsEscaping [] = true := second.quotes [] after tail.symm
      exact absurd unescaped (by decide)
    | cons c inner =>
      rw [List.cons_append, List.cons.injEq] at tail
      exact first.quotes before inner (tail.1 ▸ front)

/-- Plain text is safe if it has no backslash at its end. -/
theorem safe_of_plain {text : List Char} (plain : text.all isPlain = true) (ends : endsEscaping text = false) :
    Safe text := by
  have each : ∀ c ∈ text, isControl c = false ∧ c ≠ '"' := by simpa [isPlain] using plain
  refine ⟨fun c member => (each c member).1, ?_, ends⟩
  rintro before after rfl
  exact absurd rfl (each '"' (List.mem_append_right before List.mem_cons_self)).2

/-- An escaped character is safe. -/
theorem safe_of_written {c : Char} {text : List Char} (written : Written c text) : Safe text := by
  cases written with
  | @mark mark reads =>
    have control : isControl mark = false := by
      have marks : ['"', '\\', 't', 'n', 'r', '0'].all (!isControl ·) = true := by decide
      simpa using List.all_eq_true.1 marks mark (mem_of_marked? reads)
    refine ⟨List.forall_mem_cons.2 ⟨rfl, List.forall_mem_singleton.2 control⟩, ?_, by simp [endsEscaping]⟩
    rintro (_ | ⟨first, _ | ⟨second, before⟩⟩) after split
    · exact absurd (List.cons.inj split).1 (by decide)
    · rw [← (List.cons.inj split).1]
      rfl
    · have longer := congrArg List.length split
      simp at longer
  | codePoint =>
    have digits : (Nat.toDigits 16 c.toNat).all isPlain = true := by
      refine List.all_eq_true.2 fun other isOther => ?_
      obtain ⟨digit, small, rfl⟩ := exists_digit_of_mem_toDigits isOther
      exact (isPlain_digitChar small).1
    have marks : ['\\', 'u', '\x7b'].all isPlain = true ∧ ['\x7d'].all isPlain = true := by decide
    refine safe_of_plain ?_ (endsEscaping_concat ('\\' :: 'u' :: '\x7b' :: Nat.toDigits 16 c.toNat) (by decide))
    change (['\\', 'u', '\x7b'] ++ (Nat.toDigits 16 c.toNat ++ ['\x7d'])).all isPlain = true
    rw [List.all_append, List.all_append, digits, marks.1, marks.2]
    rfl
  | itself quote backslash control =>
    exact safe_of_plain (by simp [isPlain, control, quote]) (endsEscaping_concat [] backslash)

theorem safe_escape (text : List Char) : Safe (text.flatMap escapeChar) := by
  induction text with
  | nil => exact safe_of_plain rfl rfl
  | cons c rest ih =>
    rw [List.flatMap_cons]
    exact (safe_of_written (written_escapeChar c)).append ih

/-! ## Reading -/

/-- Where a reader stands: between two characters of the text, after a backslash, after the letter of a code point, or
among the digits of one, whose value so far is known. -/
inductive Place where
  | between
  | escaped
  | opening
  | digits (value : Nat)
deriving Repr, DecidableEq

/-- Reads escaped text up to a double quote that is not escaped, or to its end. The result is what the text stands for
and what was not read. -/
def readEscaped : Place → List Char → Option (List Char × List Char)
  | .between, [] => some ([], [])
  | .escaped, [] | .opening, [] | .digits _, [] => none
  | .between, c :: rest =>
    if c = '"' then some ([], c :: rest)
    else if c = '\\' then readEscaped .escaped rest
    else (readEscaped .between rest).map (Prod.map (c :: ·) id)
  | .escaped, c :: rest =>
    if c = 'u' then readEscaped .opening rest
    else (marked? c).bind fun read => (readEscaped .between rest).map (Prod.map (read :: ·) id)
  | .opening, c :: rest => if c = '\x7b' then readEscaped (.digits 0) rest else none
  | .digits value, c :: rest =>
    if c = '\x7d' then (readEscaped .between rest).map (Prod.map (Char.ofNat value :: ·) id)
    else (digitValue? c).bind fun digit => readEscaped (.digits (16 * value + digit)) rest

theorem readEscaped_digit {digit : Nat} (small : digit < 16) (value : Nat) (rest : List Char) :
    readEscaped (.digits value) (Nat.digitChar digit :: rest) = readEscaped (.digits (16 * value + digit)) rest := by
  rw [readEscaped, if_neg (isPlain_digitChar small).2, digitValue?_digitChar small, Option.bind_some]

theorem readEscaped_toDigits (number : Nat) (rest : List Char) :
    readEscaped (.digits 0) (Nat.toDigits 16 number ++ rest) = readEscaped (.digits number) rest := by
  induction number using Nat.strongRecOn generalizing rest with
  | ind number ih =>
    rcases toDigits_cases number with ⟨small, digits⟩ | ⟨less, digits⟩
    · rw [digits, List.singleton_append, readEscaped_digit small, Nat.mul_zero, Nat.zero_add]
    · rw [digits, List.append_assoc, ih (number / 16) less, List.singleton_append,
        readEscaped_digit (Nat.mod_lt _ (by decide)), Nat.div_add_mod]

/-- A reader finds a character again, however it is written. -/
theorem readEscaped_written {c : Char} {text : List Char} (written : Written c text) (rest : List Char) :
    readEscaped .between (text ++ rest) = (readEscaped .between rest).map (Prod.map (c :: ·) id) := by
  cases written with
  | @mark mark reads =>
    have short : mark ≠ 'u' := by
      rintro rfl
      exact absurd (mem_of_marked? reads) (by decide)
    rw [List.cons_append, readEscaped, if_neg (by decide), if_pos rfl, List.singleton_append, readEscaped, if_neg short,
      reads, Option.bind_some]
  | codePoint =>
    rw [codePointEscape]
    simp only [List.cons_append, List.append_assoc, readEscaped, readEscaped_toDigits, Char.ofNat_toNat]
    rfl
  | itself quote backslash =>
    rw [List.singleton_append, readEscaped, if_neg quote, if_neg backslash]

/-- **A reader finds escaped text again**, and goes on with what comes after it. -/
theorem readEscaped_escape (text rest : List Char) :
    readEscaped .between (text.flatMap escapeChar ++ rest) =
      (readEscaped .between rest).map (Prod.map (text ++ ·) id) := by
  induction text with
  | nil => exact Option.map_id_apply.symm
  | cons c text ih =>
    rw [List.flatMap_cons, List.append_assoc, readEscaped_written (written_escapeChar c), ih, Option.map_map]
    rfl

end StepChart.Text
