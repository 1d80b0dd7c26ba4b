import Mathlib.Data.List.Basic
import StepChart.Go.Lexeme

/-!
# Where numbers end

No number goes on past a blank or past the beginning of a comment. So the length of the number that starts a
text depends only on what stands before the first of them (`numberLength_append`).
-/

namespace StepChart.Go

/-- What ends a number: a blank, or the beginning of a comment. -/
def EndsNumber (c : Char) : Prop := c = ' ' ∨ c = '/'

theorem EndsNumber.ne {c other : Char} (ends : EndsNumber c) (notBlank : ' ' ≠ other) (notSlash : '/' ≠ other) :
    c ≠ other := by
  rcases ends with rfl | rfl
  · exact notBlank
  · exact notSlash

/-- Digits are told from underscores and from what ends a number. -/
structure Digits (isDigit : Char → Bool) : Prop where
  underscore : isDigit '_' = false
  ends : ∀ {c}, EndsNumber c → isDigit c = false

theorem digits_decimal : Digits Char.isDigit where
  underscore := by decide
  ends ends := by rcases ends with rfl | rfl <;> decide

theorem digits_hex : Digits isHexDigit where
  underscore := by decide
  ends ends := by rcases ends with rfl | rfl <;> decide

theorem digits_octal : Digits isOctalDigit where
  underscore := by decide
  ends ends := by rcases ends with rfl | rfl <;> decide

theorem digits_binary : Digits isBinaryDigit where
  underscore := by decide
  ends ends := by rcases ends with rfl | rfl <;> decide

/-! ## Lengths -/

section Lengths

variable (isDigit : Char → Bool) (cs : List Char)

theorem moreDigits_le : moreDigits isDigit cs ≤ cs.length := by
  fun_induction moreDigits isDigit cs <;> simp only [List.length_cons, List.length_nil] <;> omega

theorem digits_le : digits isDigit cs ≤ cs.length := by
  cases cs with
  | nil => exact Nat.le_refl 0
  | cons d cs =>
    have := moreDigits_le isDigit cs
    rw [digits, List.length_cons]
    split <;> omega

theorem markedDigits_le : markedDigits isDigit cs ≤ cs.length := by
  unfold markedDigits
  split
  · next cs =>
    have := digits_le isDigit cs
    rw [List.length_cons]
    split <;> omega
  · exact digits_le isDigit cs

/-- The length of a sign and that of the digits after it. -/
def signedDigits : List Char → Nat × Nat
  | '+' :: ds | '-' :: ds => (1, digits Char.isDigit ds)
  | ds => (0, digits Char.isDigit ds)

theorem exponent_cons (lower upper e : Char) :
    exponent lower upper (e :: cs) =
      if e = lower ∨ e = upper then
        if (signedDigits cs).2 = 0 then 0 else (signedDigits cs).1 + (signedDigits cs).2 + 1
      else 0 := by
  unfold exponent signedDigits
  rfl

theorem signedDigits_le : (signedDigits cs).1 + (signedDigits cs).2 ≤ cs.length := by
  unfold signedDigits
  split
  · next ds =>
    have := digits_le Char.isDigit ds
    rw [List.length_cons]
    omega
  · next ds =>
    have := digits_le Char.isDigit ds
    rw [List.length_cons]
    omega
  · have := digits_le Char.isDigit cs
    omega

theorem exponent_le (lower upper : Char) : exponent lower upper cs ≤ cs.length := by
  cases cs with
  | nil => exact Nat.le_refl 0
  | cons e cs =>
    have := signedDigits_le cs
    rw [exponent_cons, List.length_cons]
    split
    · split <;> omega
    · omega

/-- The length of an integer whose base one of two letters after the zero gives. -/
def basedLengths (lower upper : Char) : List Char → List Nat
  | b :: ds =>
    if (b = lower ∨ b = upper) ∧ markedDigits isDigit ds ≠ 0 then [markedDigits isDigit ds + 2] else []
  | [] => []

theorem integerLengths_zero :
    integerLengths ('0' :: cs) =
      [markedDigits isOctalDigit cs + 1] ++ basedLengths isBinaryDigit 'b' 'B' cs ++
        basedLengths isOctalDigit 'o' 'O' cs ++ basedLengths isHexDigit 'x' 'X' cs := by
  cases cs <;> rfl

theorem basedLengths_le (lower upper : Char) {n : Nat} (isLength : n ∈ basedLengths isDigit lower upper cs) :
    n ≤ cs.length + 1 := by
  cases cs with
  | nil => cases isLength
  | cons b ds =>
    have := markedDigits_le isDigit ds
    rw [basedLengths] at isLength
    split at isLength
    · rw [List.mem_singleton.mp isLength, List.length_cons]
      omega
    · cases isLength

theorem integerLengths_le {n : Nat} (isLength : n ∈ integerLengths cs) : n ≤ cs.length := by
  by_cases isZero : ∃ ds, cs = '0' :: ds
  · obtain ⟨ds, rfl⟩ := isZero
    have := markedDigits_le isOctalDigit ds
    rw [integerLengths_zero] at isLength
    simp only [List.mem_append, List.mem_singleton] at isLength
    rw [List.length_cons]
    rcases isLength with ((rfl | isBinary) | isOctal) | isHex
    · omega
    · exact basedLengths_le _ ds _ _ isBinary
    · exact basedLengths_le _ ds _ _ isOctal
    · exact basedLengths_le _ ds _ _ isHex
  · rw [integerLengths] at isLength
    · split at isLength
      · cases isLength
      · rw [List.mem_singleton.mp isLength]
        exact digits_le Char.isDigit cs
    · exact fun ds same => isZero ⟨ds, same⟩

theorem pointed_le (whole : Nat) : pointed whole isDigit cs ≤ cs.length := by
  unfold pointed
  split
  · next ds rest =>
    have length := congrArg List.length rest
    have := digits_le isDigit ds
    rw [List.length_drop, List.length_cons] at length
    split <;> omega
  · exact Nat.zero_le _

theorem exponent_drop_le (lower upper : Char) {n : Nat} (le : n ≤ cs.length) :
    n + exponent lower upper (cs.drop n) ≤ cs.length := by
  have := exponent_le (cs.drop n) lower upper
  rw [List.length_drop] at this
  omega

theorem decimalFractionLengths_le {n : Nat} (isLength : n ∈ decimalFractionLengths cs) : n ≤ cs.length := by
  have pointForm : n ∈ (if pointed (digits Char.isDigit cs) Char.isDigit cs = 0 then []
      else [pointed (digits Char.isDigit cs) Char.isDigit cs +
        exponent 'e' 'E' (cs.drop (pointed (digits Char.isDigit cs) Char.isDigit cs))]) → n ≤ cs.length := by
    intro isForm
    split at isForm
    · cases isForm
    · rw [List.mem_singleton.mp isForm]
      exact exponent_drop_le cs _ _ (pointed_le Char.isDigit cs _)
  unfold decimalFractionLengths at isLength
  dsimp only at isLength
  split at isLength
  · exact pointForm isLength
  · rcases List.mem_cons.mp isLength with rfl | isForm
    · exact exponent_drop_le cs _ _ (digits_le Char.isDigit cs)
    · exact pointForm isForm

theorem hexFractionLengths_le {n : Nat} (isLength : n ∈ hexFractionLengths cs) : n ≤ cs.length := by
  unfold hexFractionLengths at isLength
  split at isLength
  · next x cs =>
    split at isLength
    · obtain ⟨mantissa, isMantissa, found⟩ := List.mem_filterMap.mp isLength
      have le : mantissa ≤ cs.length := by
        simp only [List.mem_cons, List.not_mem_nil, or_false] at isMantissa
        rcases isMantissa with rfl | rfl
        · exact markedDigits_le isHexDigit cs
        · exact pointed_le isHexDigit cs _
      have := exponent_drop_le cs 'p' 'P' le
      dsimp only at found
      split at found
      · cases found
      · cases found
        rw [List.length_cons, List.length_cons]
        omega
    · cases isLength
  · cases isLength

end Lengths

/-! ## The end of a number -/

section Ends

variable {isDigit : Char → Bool} {c : Char} (ends : EndsNumber c) (rest : List Char)

include ends

omit ends in
/-- A text that goes on with another character than `x` does not begin with `x` for that. -/
theorem append_ne_cons {x : Char} (other : c ≠ x) {cs : List Char} (begins : ∀ ds, cs = x :: ds → False)
    (ds : List Char) (same : cs ++ c :: rest = x :: ds) : False := by
  cases cs with
  | nil =>
    cases same
    exact other rfl
  | cons d cs =>
    cases same
    exact begins cs rfl

theorem moreDigits_append (isDigits : Digits isDigit) (cs : List Char) :
    moreDigits isDigit (cs ++ c :: rest) = moreDigits isDigit cs := by
  have ended : isDigit c = false := isDigits.ends ends
  have single : ∀ {d : Char} (ds : List Char), d ≠ '_' → isDigit d = false → moreDigits isDigit (d :: ds) = 0 := by
    intro d ds notUnderscore noDigit
    rw [moreDigits, noDigit]
    · rfl
    · exact fun _ _ isUnderscore => absurd isUnderscore notUnderscore
  fun_induction moreDigits isDigit cs with
  | case1 d cs isDig ih => simp only [List.cons_append, moreDigits, isDig, if_true, ih]
  | case2 d cs noDigit => rw [List.cons_append, List.cons_append, moreDigits, if_neg noDigit]
  | case3 d cs noPair isDig ih =>
    have notUnderscore : d ≠ '_' := by
      rintro rfl
      rw [isDigits.underscore] at isDig
      cases isDig
    rw [List.cons_append, moreDigits, if_pos isDig, ih]
    exact fun _ _ isUnderscore => absurd isUnderscore notUnderscore
  | case4 d cs noPair noDigit =>
    by_cases isUnderscore : d = '_'
    · subst isUnderscore
      cases cs with
      | nil => simp only [List.cons_append, List.nil_append, moreDigits, ended, if_false, Bool.false_eq_true]
      | cons e cs => exact absurd rfl (noPair e cs rfl)
    · exact single _ isUnderscore (Bool.eq_false_iff.mpr noDigit)
  | case5 => exact single rest (ends.ne (by decide) (by decide)) ended

theorem digits_append (isDigits : Digits isDigit) (cs : List Char) :
    digits isDigit (cs ++ c :: rest) = digits isDigit cs := by
  cases cs with
  | nil => rw [List.nil_append, digits, isDigits.ends ends]; rfl
  | cons d cs => rw [List.cons_append, digits, digits, moreDigits_append ends rest isDigits]

theorem markedDigits_append (isDigits : Digits isDigit) (cs : List Char) :
    markedDigits isDigit (cs ++ c :: rest) = markedDigits isDigit cs := by
  fun_cases markedDigits isDigit cs with
  | case1 ds none => simp only [List.cons_append, markedDigits, digits_append ends rest isDigits, none, if_true]
  | case2 ds some => simp only [List.cons_append, markedDigits, digits_append ends rest isDigits, some, if_false]
  | case3 ds noUnderscore =>
    rw [markedDigits, digits_append ends rest isDigits]
    exact append_ne_cons rest (ends.ne (by decide) (by decide)) noUnderscore

theorem signedDigits_append (cs : List Char) : signedDigits (cs ++ c :: rest) = signedDigits cs := by
  fun_cases signedDigits cs with
  | case1 ds | case2 ds => rw [List.cons_append, signedDigits, digits_append ends rest digits_decimal]
  | case3 cs noPlus noMinus =>
    rw [signedDigits, digits_append ends rest digits_decimal]
    · exact append_ne_cons rest (ends.ne (by decide) (by decide)) noPlus
    · exact append_ne_cons rest (ends.ne (by decide) (by decide)) noMinus

theorem exponent_append {lower upper : Char} (notLower : c ≠ lower) (notUpper : c ≠ upper) (cs : List Char) :
    exponent lower upper (cs ++ c :: rest) = exponent lower upper cs := by
  cases cs with
  | nil =>
    rw [List.nil_append, exponent_cons, if_neg (not_or.mpr ⟨notLower, notUpper⟩)]
    rfl
  | cons e cs => rw [List.cons_append, exponent_cons, exponent_cons, signedDigits_append ends rest]

theorem pointed_append (isDigits : Digits isDigit) {whole : Nat} {cs : List Char} (le : whole ≤ cs.length) :
    pointed whole isDigit (cs ++ c :: rest) = pointed whole isDigit cs := by
  unfold pointed
  rw [List.drop_append_of_le_length le]
  cases cs.drop whole with
  | nil =>
    rw [List.nil_append]
    split
    · next ds isPoint =>
      cases isPoint
      exact absurd rfl (@EndsNumber.ne '.' '.' ends (by decide) (by decide))
    · rfl
  | cons d ds =>
    by_cases isPoint : d = '.'
    · subst isPoint
      simp only [List.cons_append, digits_append ends rest isDigits]
    · simp [isPoint]

theorem basedLengths_append (isDigits : Digits isDigit) {lower upper : Char} (notLower : c ≠ lower)
    (notUpper : c ≠ upper) (cs : List Char) :
    basedLengths isDigit lower upper (cs ++ c :: rest) = basedLengths isDigit lower upper cs := by
  cases cs with
  | nil =>
    rw [List.nil_append, basedLengths, if_neg fun both => both.1.elim notLower notUpper]
    rfl
  | cons b ds => rw [List.cons_append, basedLengths, basedLengths, markedDigits_append ends rest isDigits]

theorem integerLengths_append (cs : List Char) : integerLengths (cs ++ c :: rest) = integerLengths cs := by
  by_cases isZero : ∃ ds, cs = '0' :: ds
  · obtain ⟨ds, rfl⟩ := isZero
    rw [List.cons_append, integerLengths_zero, integerLengths_zero, markedDigits_append ends rest digits_octal,
      basedLengths_append ends rest digits_binary (ends.ne (by decide) (by decide)) (ends.ne (by decide) (by decide)),
      basedLengths_append ends rest digits_octal (ends.ne (by decide) (by decide)) (ends.ne (by decide) (by decide)),
      basedLengths_append ends rest digits_hex (ends.ne (by decide) (by decide)) (ends.ne (by decide) (by decide))]
  · have noZero : ∀ ds, cs = '0' :: ds → False := fun ds same => isZero ⟨ds, same⟩
    rw [integerLengths, integerLengths, digits_append ends rest digits_decimal]
    · exact noZero
    · exact append_ne_cons rest (ends.ne (by decide) (by decide)) noZero

theorem exponent_drop_append {lower upper : Char} (notLower : c ≠ lower) (notUpper : c ≠ upper) {cs : List Char}
    {n : Nat} (le : n ≤ cs.length) :
    exponent lower upper ((cs ++ c :: rest).drop n) = exponent lower upper (cs.drop n) := by
  rw [List.drop_append_of_le_length le, exponent_append ends rest notLower notUpper]

theorem decimalFractionLengths_append (cs : List Char) :
    decimalFractionLengths (cs ++ c :: rest) = decimalFractionLengths cs := by
  have noExponent : c ≠ 'e' ∧ c ≠ 'E' := ⟨ends.ne (by decide) (by decide), ends.ne (by decide) (by decide)⟩
  have whole_le := digits_le Char.isDigit cs
  have point_le := pointed_le Char.isDigit cs (digits Char.isDigit cs)
  unfold decimalFractionLengths
  dsimp only
  rw [digits_append ends rest digits_decimal, pointed_append ends rest digits_decimal whole_le,
    exponent_drop_append ends rest noExponent.1 noExponent.2 point_le,
    exponent_drop_append ends rest noExponent.1 noExponent.2 whole_le]

omit ends in
theorem hexFractionLengths_cons {d : Char} (notZero : d ≠ '0') (ds : List Char) :
    hexFractionLengths (d :: ds) = [] := by
  rw [hexFractionLengths]
  exact fun _ _ same => notZero (List.cons.inj same).1

theorem hexFractionLengths_append (cs : List Char) : hexFractionLengths (cs ++ c :: rest) = hexFractionLengths cs := by
  have noExponent : c ≠ 'p' ∧ c ≠ 'P' := ⟨ends.ne (by decide) (by decide), ends.ne (by decide) (by decide)⟩
  have noBase : ¬(c = 'x' ∨ c = 'X') := not_or.mpr ⟨ends.ne (by decide) (by decide), ends.ne (by decide) (by decide)⟩
  cases cs with
  | nil => exact hexFractionLengths_cons (ends.ne (by decide) (by decide)) rest
  | cons d cs =>
    by_cases isZero : d = '0'
    · subst isZero
      cases cs with
      | nil =>
        rw [List.cons_append, List.nil_append, hexFractionLengths, if_neg noBase]
        rfl
      | cons x ds =>
        have whole_le := markedDigits_le isHexDigit ds
        rw [List.cons_append, List.cons_append, hexFractionLengths, hexFractionLengths]
        dsimp only
        rw [markedDigits_append ends rest digits_hex, pointed_append ends rest digits_hex whole_le]
        split
        · refine List.filterMap_congr fun mantissa isMantissa => ?_
          have le : mantissa ≤ ds.length := by
            simp only [List.mem_cons, List.not_mem_nil, or_false] at isMantissa
            rcases isMantissa with rfl | rfl
            · exact whole_le
            · exact pointed_le isHexDigit ds _
          rw [exponent_drop_append ends rest noExponent.1 noExponent.2 le]
        · rfl
    · rw [List.cons_append, hexFractionLengths_cons isZero, hexFractionLengths_cons isZero]

/-- **A number ends before a blank or a comment**, whatever follows there. -/
theorem numberLength_append (cs : List Char) : numberLength (cs ++ c :: rest) = numberLength cs := by
  have notImaginary : c ≠ 'i' := ends.ne (by decide) (by decide)
  have lengths_le :
      ∀ n ∈ digits Char.isDigit cs :: (integerLengths cs ++ decimalFractionLengths cs ++ hexFractionLengths cs),
      n ≤ cs.length := by
    intro n isLength
    simp only [List.mem_cons, List.mem_append] at isLength
    rcases isLength with rfl | (isInteger | isDecimal) | isHex
    · exact digits_le Char.isDigit cs
    · exact integerLengths_le cs isInteger
    · exact decimalFractionLengths_le cs isDecimal
    · exact hexFractionLengths_le cs isHex
  unfold numberLength
  dsimp only
  rw [integerLengths_append ends, decimalFractionLengths_append ends, hexFractionLengths_append ends,
    digits_append ends rest digits_decimal]
  congr 2
  refine List.filterMap_congr fun n isLength => ?_
  have le := lengths_le n isLength
  rw [List.drop_append_of_le_length le]
  cases cs.drop n with
  | nil => simp [notImaginary]
  | cons d ds => rfl

end Ends

end StepChart.Go
