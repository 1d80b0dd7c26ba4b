import StepChart.Toml.Quoted
import StepChart.Toml.Value

/-!
# Numbers, dates and truth values of TOML

These are written without quotes. `bare?` tells which of them a run of characters is.
-/

namespace StepChart.Toml

/-! ## Numbers -/

/-- The value of digits, between which single underscores may stand, after digits of value `value`.
-/
def digitsFrom (base value : Nat) (afterDigit : Bool) : List Char → Option Nat
  | [] => if afterDigit then some value else none
  | c :: rest =>
    if c = '_' then if afterDigit then digitsFrom base value false rest else none
    else (digitValue? base c).bind fun digit => digitsFrom base (value * base + digit) true rest
termination_by structural cs => cs

/-- The value of at least one digit. -/
def digits? (base : Nat) (cs : List Char) : Option Nat :=
  digitsFrom base 0 false cs

/-- The value of a decimal number without a sign. It starts with a zero only if it is zero. -/
def decimal? (cs : List Char) : Option Nat :=
  match cs with
  | '0' :: _ :: _ => none
  | cs => digits? 10 cs

/-- The number without its sign. -/
def dropSign : List Char → List Char
  | '+' :: rest => rest
  | '-' :: rest => rest
  | cs => cs

/-- The least whole number. -/
def leastInteger : Int := -Int.ofNat (Nat.pow 2 127)

/-- The largest whole number. -/
def largestInteger : Int := Int.ofNat (Nat.pow 2 128 - 1)

/-- The value of a whole number of any size. -/
def wholeNumber? : List Char → Option Int
  | '0' :: 'x' :: rest => (digits? 16 rest).map Int.ofNat
  | '0' :: 'o' :: rest => (digits? 8 rest).map Int.ofNat
  | '0' :: 'b' :: rest => (digits? 2 rest).map Int.ofNat
  | '-' :: rest => (decimal? rest).map fun value => -Int.ofNat value
  | cs => (decimal? (dropSign cs)).map Int.ofNat

/-- A number without its sign that has a fraction, an exponent or both: `mantissa * 10 ^ exponent`. -/
structure Scientific where
  mantissa : Nat
  exponent : Int
deriving Repr, DecidableEq, Inhabited

/-- The value of a whole part that is followed by a fraction, an exponent or both. -/
def scientific? (cs : List Char) : Option Scientific := do
  let isExponentMark (c : Char) : Bool := c == 'e' || c == 'E'
  let mantissa := cs.takeWhile (!isExponentMark ·)
  let scale := cs.dropWhile (!isExponentMark ·)
  let fraction := mantissa.dropWhile (· != '.')
  let whole ← decimal? (mantissa.takeWhile (· != '.'))
  let (part, places) ← match fraction with
    | [] => some (0, 0)
    | _ :: cs => (digits? 10 cs).map fun value => (value, cs.countP (· != '_'))
  let exponent ← match scale with
    | [] => some 0
    | _ :: '-' :: cs => (digits? 10 cs).map fun value => -Int.ofNat value
    | _ :: cs => (digits? 10 (dropSign cs)).map Int.ofNat
  if fraction.isEmpty && scale.isEmpty then none
  else some ⟨whole * Nat.pow 10 places + part, exponent - Int.ofNat places⟩

/-- The least number that is nearer to `2 ^ 1024` than to any number that 64 bits can hold. -/
def leastInfinite : Nat := Nat.pow 2 1024 - Nat.pow 2 970

/-- The number of decimal digits of `leastInfinite`. -/
def infiniteDigits : Nat := 309

/-- The number is too large for 64 bits. Only for a number with as many digits as `leastInfinite`
does it take more than counting them. -/
def Scientific.isInfinite (number : Scientific) : Bool :=
  let length : Int := Int.ofNat (Nat.toDigits 10 number.mantissa).length + number.exponent
  if number.mantissa = 0 || length < infiniteDigits then false
  else if infiniteDigits < length then true
  else
    let raised := Nat.pow 10 number.exponent.toNat
    let lowered := Nat.pow 10 (-number.exponent).toNat
    leastInfinite * lowered ≤ number.mantissa * raised

/-- The characters are a number that may have a fraction and an exponent, or a word for what is not
a number. -/
def isFloat (cs : List Char) : Bool :=
  let unsigned := dropSign cs
  unsigned == ['i', 'n', 'f'] || unsigned == ['n', 'a', 'n'] || (scientific? unsigned).any (!·.isInfinite)

/-! ## Dates and times -/

/-- A number of exactly `count` digits. -/
def fixed : (count : Nat) → Scan Nat
  | 0, cs => some (0, cs)
  | _ + 1, [] => none
  | count + 1, c :: rest =>
    (digitValue? 10 c).bind fun digit =>
      (fixed count rest).map fun (value, rest) => (digit * Nat.pow 10 count + value, rest)

/-- What follows a mark. -/
def after (mark : Char) : List Char → Option (List Char)
  | [] => none
  | c :: rest => if c = mark then some rest else none

/-- The number of days of a month. -/
def daysOf (year month : Nat) : Nat :=
  if month = 2 then if year % 4 = 0 ∧ (year % 100 ≠ 0 ∨ year % 400 = 0) then 29 else 28
  else if month = 4 ∨ month = 6 ∨ month = 9 ∨ month = 11 then 30
  else 31

/-- What follows a date. -/
def afterDate (cs : List Char) : Option (List Char) := do
  let (year, cs) ← fixed 4 cs
  let (month, cs) ← fixed 2 (← after '-' cs)
  let (day, cs) ← fixed 2 (← after '-' cs)
  if 1 ≤ month ∧ month ≤ 12 ∧ 1 ≤ day ∧ day ≤ daysOf year month then some cs else none

/-- What follows hours and minutes. -/
def afterMinutes (cs : List Char) : Option (List Char) := do
  let (hour, cs) ← fixed 2 cs
  let (minute, cs) ← fixed 2 (← after ':' cs)
  if hour ≤ 23 ∧ minute ≤ 59 then some cs else none

/-- What follows a time. Seconds may be left out and may have a fraction. -/
def afterTime (cs : List Char) : Option (List Char) := do
  match ← afterMinutes cs with
  | ':' :: rest =>
    let (second, rest) ← fixed 2 rest
    if 60 < second then none
    else
      match rest with
      | '.' :: fraction =>
        let isDigit (c : Char) : Bool := (digitValue? 10 c).isSome
        if fraction.takeWhile isDigit = [] then none else some (fraction.dropWhile isDigit)
      | rest => some rest
  | rest => some rest

/-- The characters are an offset from universal time, or none are there. -/
def isOffset : List Char → Bool
  | [] | ['Z'] | ['z'] => true
  | '+' :: rest | '-' :: rest => afterMinutes rest == some []
  | _ => false

/-- The characters are a date, a time, or both. -/
def isMoment (cs : List Char) : Bool :=
  match afterDate cs with
  | some [] => true
  | some (mark :: rest) =>
    (mark == 'T' || mark == 't' || mark == ' ') && (afterTime rest).any isOffset
  | none => afterTime cs == some []

/-! ## All of them -/

/-- The value that a run of characters without quotes stands for. -/
def bare? (cs : List Char) : Option Value :=
  if cs = "true".toList then some (.truth true)
  else if cs = "false".toList then some (.truth false)
  else
    match wholeNumber? cs with
    | some value => if leastInteger ≤ value ∧ value ≤ largestInteger then some (.integer value) else none
    | none => if isFloat cs then some .float else if isMoment cs then some .moment else none

/-- Characters of values without quotes. -/
def isBareValue (c : Char) : Bool :=
  c.isAlphanum || c == '+' || c == '-' || c == '_' || c == '.' || c == ':'

/-- A value without quotes. A blank may stand between a date and a time. -/
def bareValue : Scan Value := fun cs =>
  let run := cs.takeWhile isBareValue
  let rest := cs.dropWhile isBareValue
  match afterDate run, rest with
  | some [], ' ' :: c :: more =>
    if c.isDigit then
      let time := (c :: more).takeWhile isBareValue
      (bare? (run ++ ' ' :: time)).map fun value => (value, (c :: more).dropWhile isBareValue)
    else (bare? run).map fun value => (value, rest)
  | _, _ => (bare? run).map fun value => (value, rest)

end StepChart.Toml
