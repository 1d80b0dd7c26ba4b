import StepChart.Syntax.Tree
import StepChart.Text.Bytes
import StepChart.Text.Identifier

/-!
# Lexemes

A source text is cut into lexemes from left to right, blanks and comments included, so that the
lexemes put together give the text back. At each place the longest lexeme of its class is taken, but
a mark is a single character: which marks belong together depends on what can stand there. No
comment, string or rune holds a null character. The lengths below count characters; the spans of the
lexemes count bytes.
-/

namespace StepChart.Go

open Syntax Text

/-- The classes of lexemes. Only names, numbers, runes, strings and marks are tokens. -/
inductive LexemeKind where
  | blank | newline | comment | name | number | rune | string | mark
deriving Repr, DecidableEq, Inhabited

/-- A piece of a source text. -/
structure Lexeme where
  kind : LexemeKind
  text : String
  span : Span
deriving Repr, DecidableEq, Inhabited

/-! ## Blanks and comments -/

/-- Blank characters other than the line break. -/
def isBlank (c : Char) : Bool :=
  c == ' ' || c == '\t' || c == '\r' || c == '\x0b' || c == '\x0c'

/-- The mark of the byte order, which may start a text. -/
def byteOrderMark : Char := '\ufeff'

/-- The length of the rest of a block comment, its closing mark included. -/
def blockCommentRest? : List Char → Option Nat
  | '*' :: '/' :: _ => some 2
  | '\x00' :: _ => none
  | _ :: cs => (blockCommentRest? cs).map (· + 1)
  | [] => none

/-- The length of a comment without its first character, if one starts there. -/
def commentRest? : List Char → Option Nat
  | '/' :: cs => some ((cs.takeWhile fun c => c != '\n' && c != '\x00').length + 1)
  | '*' :: cs => (blockCommentRest? cs).map (· + 1)
  | _ => none

/-! ## Numbers -/

/-- Hexadecimal digits in either case. -/
def isHexDigit (c : Char) : Bool :=
  c.isDigit || ('a' ≤ c && c ≤ 'f') || ('A' ≤ c && c ≤ 'F')

/-- Octal digits. -/
def isOctalDigit (c : Char) : Bool := '0' ≤ c && c ≤ '7'

/-- Binary digits. -/
def isBinaryDigit (c : Char) : Bool := c == '0' || c == '1'

/-- The length of what continues a run of digits, in which single underscores may stand between
digits. -/
def moreDigits (isDigit : Char → Bool) : List Char → Nat
  | '_' :: d :: cs => if isDigit d then moreDigits isDigit cs + 2 else 0
  | d :: cs => if isDigit d then moreDigits isDigit cs + 1 else 0
  | [] => 0

/-- The length of a run of digits. -/
def digits (isDigit : Char → Bool) : List Char → Nat
  | d :: cs => if isDigit d then moreDigits isDigit cs + 1 else 0
  | [] => 0

/-- The length of a run of digits that an underscore may precede. -/
def markedDigits (isDigit : Char → Bool) : List Char → Nat
  | '_' :: cs => if digits isDigit cs = 0 then 0 else digits isDigit cs + 1
  | cs => digits isDigit cs

/-- The length of an exponent: one of two letters, an optional sign and decimal digits. -/
def exponent (lower upper : Char) : List Char → Nat
  | e :: cs =>
    if e = lower ∨ e = upper then
      let signed := match cs with
        | '+' :: ds | '-' :: ds => (1, digits Char.isDigit ds)
        | ds => (0, digits Char.isDigit ds)
      if signed.2 = 0 then 0 else signed.1 + signed.2 + 1
    else 0
  | [] => 0

/-- The lengths of the integers that start the text: at most one per base. -/
def integerLengths : List Char → List Nat
  | '0' :: cs =>
    let based (lower upper : Char) (isDigit : Char → Bool) : List Nat :=
      match cs with
      | b :: ds =>
        let count := markedDigits isDigit ds
        if (b = lower ∨ b = upper) ∧ count ≠ 0 then [count + 2] else []
      | [] => []
    [markedDigits isOctalDigit cs + 1] ++ based 'b' 'B' isBinaryDigit ++ based 'o' 'O' isOctalDigit
      ++ based 'x' 'X' isHexDigit
  | cs => if digits Char.isDigit cs = 0 then [] else [digits Char.isDigit cs]

/-- The length of a mantissa with a point in it: digits, the point, and digits of which one side may
be missing. -/
def pointed (whole : Nat) (isDigit : Char → Bool) (cs : List Char) : Nat :=
  match cs.drop whole with
  | '.' :: ds => if whole = 0 ∧ digits isDigit ds = 0 then 0 else whole + 1 + digits isDigit ds
  | _ => 0

/-- The lengths of the decimal fractions that start the text. -/
def decimalFractionLengths (cs : List Char) : List Nat :=
  let whole := digits Char.isDigit cs
  let withPoint := pointed whole Char.isDigit cs
  let pointForms := if withPoint = 0 then [] else [withPoint + exponent 'e' 'E' (cs.drop withPoint)]
  let power := exponent 'e' 'E' (cs.drop whole)
  if whole = 0 ∨ power = 0 then pointForms else (whole + power) :: pointForms

/-- The lengths of the hexadecimal fractions that start the text; each has a binary exponent. -/
def hexFractionLengths : List Char → List Nat
  | '0' :: x :: cs =>
    if x = 'x' ∨ x = 'X' then
      let whole := markedDigits isHexDigit cs
      [whole, pointed whole isHexDigit cs].filterMap fun mantissa =>
        let power := exponent 'p' 'P' (cs.drop mantissa)
        if mantissa = 0 ∨ power = 0 then none else some (mantissa + power + 2)
    else []
  | _ => []

/-- The length of the longest number that starts the text; a letter after it makes it imaginary. -/
def numberLength (cs : List Char) : Nat :=
  let plain := integerLengths cs ++ decimalFractionLengths cs ++ hexFractionLengths cs
  let imaginary := (digits Char.isDigit cs :: plain).filterMap fun n =>
    if n ≠ 0 ∧ (cs.drop n).head? = some 'i' then some (n + 1) else none
  (plain ++ imaginary).foldl max 0

/-! ## Runes and strings -/

/-- The length of the rest of a string between double quotes, the closing quote included. -/
def stringRest? : List Char → Option Nat
  | '"' :: _ => some 1
  | '\n' :: _ | '\x00' :: _ => none
  | '\\' :: 'x' :: a :: b :: cs =>
    if isHexDigit a && isHexDigit b then (stringRest? cs).map (· + 4) else none
  | '\\' :: 'u' :: a :: b :: c :: d :: cs =>
    if [a, b, c, d].all isHexDigit then (stringRest? cs).map (· + 6) else none
  | '\\' :: 'U' :: a :: b :: c :: d :: e :: f :: g :: h :: cs =>
    if [a, b, c, d, e, f, g, h].all isHexDigit then (stringRest? cs).map (· + 10) else none
  | '\\' :: c :: cs =>
    if c = 'x' ∨ c = 'u' ∨ c = 'U' ∨ c = '\x00' then none else (stringRest? cs).map (· + 2)
  | _ :: cs => (stringRest? cs).map (· + 1)
  | [] => none

/-- The length of the rest of a raw string, the closing quote included. -/
def rawStringRest? : List Char → Option Nat
  | '\x60' :: _ => some 1
  | '\x00' :: _ => none
  | _ :: cs => (rawStringRest? cs).map (· + 1)
  | [] => none

/-- The characters that name a rune after a backslash. -/
def isRuneLetter (c : Char) : Bool :=
  ['a', 'b', 'f', 'n', 'r', 't', 'v', '\\', '\'', '"'].contains c

/-- The length of a backslash escape in a rune, without the backslash. -/
def runeEscape? : List Char → Option Nat
  | c :: cs =>
    if isRuneLetter c then some 1
    else if c = 'x' ∧ (cs.take 2).length = 2 ∧ (cs.take 2).all isHexDigit then some 3
    else if c = 'u' ∧ (cs.take 4).length = 4 ∧ (cs.take 4).all isHexDigit then some 5
    else if c = 'U' ∧ (cs.take 8).length = 8 ∧ (cs.take 8).all isHexDigit then some 9
    else if isOctalDigit c ∧ (cs.take 2).length = 2 ∧ (cs.take 2).all isOctalDigit then some 3
    else none
  | [] => none

/-- The length of the rest of a rune, the closing quote included. -/
def runeRest? : List Char → Option Nat
  | '\\' :: cs =>
    (runeEscape? cs).bind fun n => if (cs.drop n).head? = some '\'' then some (n + 2) else none
  | c :: '\'' :: _ => if c = '\'' ∨ c = '\x00' then none else some 2
  | _ => none

/-! ## Marks -/

/-- The characters of operators and punctuation. -/
def isMark (c : Char) : Bool :=
  ['+', '-', '*', '/', '%', '&', '|', '^', '<', '>', '=', '!', '~', '(', ')', '[', ']', '\x7b', '\x7d',
   ',', ';', '.', ':', '\x00'].contains c

/-! ## The cut -/

/-- The class of the lexeme that starts with `c`, and how many of the characters after `c` belong to
it. -/
def lexemeAt? (c : Char) (cs : List Char) : Option (LexemeKind × Nat) :=
  if c = '\n' then some (.newline, 0)
  else if isBlank c then some (.blank, 0)
  else if isIdentifierStart c then some (.name, (cs.takeWhile isIdentifierPart).length)
  else if c = '"' then (stringRest? cs).map ((.string, ·))
  else if c = '\x60' then (rawStringRest? cs).map ((.string, ·))
  else if c = '\'' then (runeRest? cs).map ((.rune, ·))
  else if numberLength (c :: cs) ≠ 0 then some (.number, numberLength (c :: cs) - 1)
  else if isMark c then
    match (if c = '/' then commentRest? cs else none) with
    | some rest => some (.comment, rest)
    | none => some (.mark, 0)
  else none

/-- The lexemes of a text, or the byte at which no lexeme starts. The first `inside` characters
belong to a lexeme that is cut already, and the next one starts at byte `start`. -/
def lexemesFrom (start : Nat) : (inside : Nat) → List Char → Except Nat (List Lexeme)
  | _, [] => .ok []
  | inside + 1, _ :: cs => lexemesFrom start inside cs
  | 0, c :: cs =>
    match lexemeAt? c cs with
    | none => .error start
    | some (kind, extra) =>
      let text := c :: cs.take extra
      let stop := start + byteLength text
      match lexemesFrom stop extra cs with
      | .error offset => .error offset
      | .ok rest => .ok (⟨kind, String.ofList text, ⟨start, stop⟩⟩ :: rest)
termination_by structural _ cs => cs

/-- The lexemes of a source text, or the byte at which no lexeme starts. -/
def lexemes (source : String) : Except Nat (List Lexeme) :=
  match source.toList with
  | c :: cs =>
    if c = byteOrderMark then
      let mark : Lexeme := ⟨.blank, String.singleton c, ⟨0, c.utf8Size⟩⟩
      (lexemesFrom c.utf8Size 0 cs).map (mark :: ·)
    else lexemesFrom 0 0 (c :: cs)
  | [] => .ok []

end StepChart.Go
