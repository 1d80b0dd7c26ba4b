/-!
# Quoted texts of TOML

There are four forms: in single or double quotes, on one line or on several. Double quotes allow
escapes. Each reader starts after the opening quotes and answers with the characters meant and what
follows the closing quotes.
-/

namespace StepChart.Toml

/-- What a reader has read, and what is left. -/
abbrev Scan (α : Type) := List Char → Option (α × List Char)

/-- Characters that may stand for themselves on a line: all but the control characters, of which a
tab may. -/
def isPlain (c : Char) : Bool :=
  c == '\t' || (decide (0x20 ≤ c.toNat) && c != '\x7f')

/-- Characters that may stand for themselves in a text of several lines. A carriage return stands
before a line end. -/
def isPlainOrEnd (c : Char) : Bool :=
  isPlain c || c == '\n' || c == '\r'

/-- The value of a digit in a base of at most sixteen. -/
def digitValue? (base : Nat) (c : Char) : Option Nat :=
  let value :=
    if '0' ≤ c ∧ c ≤ '9' then some (c.toNat - '0'.toNat)
    else if 'a' ≤ c ∧ c ≤ 'f' then some (c.toNat - 'a'.toNat + 10)
    else if 'A' ≤ c ∧ c ≤ 'F' then some (c.toNat - 'A'.toNat + 10)
    else none
  value.filter (· < base)

/-- Puts characters before a text that was read. -/
def prepend (cs : List Char) (read : Option (List Char × List Char)) : Option (List Char × List Char) :=
  read.map fun (text, rest) => (cs ++ text, rest)

/-! ## Escapes -/

/-- The character that a letter after a backslash stands for. -/
def escaped? : Char → Option Char
  | 'b' => some '\x08'
  | 't' => some '\t'
  | 'n' => some '\n'
  | 'f' => some '\x0c'
  | 'r' => some '\r'
  | 'e' => some '\x1b'
  | '"' => some '"'
  | '\\' => some '\\'
  | _ => none

/-- The number of digits of a code point after a letter that announces one. -/
def codeLength? : Char → Option Nat
  | 'x' => some 2
  | 'u' => some 4
  | 'U' => some 8
  | _ => none

/-- The character with a code point, if there is one. -/
def charOf? (code : Nat) : Option Char :=
  if code.isValidChar then some (Char.ofNat code) else none

/-! ## Double quotes -/

/-- What a reader inside double quotes is in the middle of. -/
inductive Pending where
  | nothing
  /-- A backslash was read. -/
  | escape
  /-- So many digits of a code point are still to come. -/
  | code (digits value : Nat)
  /-- So many quotes were read, which may close the text. -/
  | quotes (count : Nat)
  /-- After a backslash only blanks were read; a line end has to come. -/
  | lineEnd
  /-- Blanks and line ends after a backslash at the end of a line are passed over. -/
  | gap
deriving Repr, DecidableEq, Inhabited

/-- Reads the character after a backslash; `goOn` reads what follows. -/
def readEscape (c : Char) (goOn : Pending → Option (List Char × List Char)) : Option (List Char × List Char) :=
  match escaped? c with
  | some meant => prepend [meant] (goOn .nothing)
  | none => (codeLength? c).bind fun digits => goOn (.code digits 0)

/-- Reads a digit of a code point. -/
def readCode (digits value : Nat) (c : Char) (goOn : Pending → Option (List Char × List Char)) :
    Option (List Char × List Char) :=
  (digitValue? 16 c).bind fun digit =>
    let value := value * 16 + digit
    if digits ≤ 1 then (charOf? value).bind fun meant => prepend [meant] (goOn .nothing)
    else goOn (.code (digits - 1) value)

/-- The text of one line in double quotes. -/
def basicFrom : Pending → Scan (List Char)
  | _, [] => none
  | .escape, c :: rest => readEscape c fun pending => basicFrom pending rest
  | .code digits value, c :: rest => readCode digits value c fun pending => basicFrom pending rest
  | _, c :: rest =>
    if c = '"' then some ([], rest)
    else if c = '\\' then basicFrom .escape rest
    else if isPlain c then prepend [c] (basicFrom .nothing rest)
    else none

/-- Reads a character of a text of several lines in double quotes. -/
def readLong (c : Char) (goOn : Pending → Option (List Char × List Char)) : Option (List Char × List Char) :=
  if c = '"' then goOn (.quotes 1)
  else if c = '\\' then goOn .escape
  else if isPlainOrEnd c then prepend [c] (goOn .nothing)
  else none

/-- The text of several lines in double quotes. Three quotes close it; one or two before them belong
to the text. -/
def longBasicFrom : Pending → Scan (List Char)
  | .quotes count, [] => if count < 3 then none else some (List.replicate (count - 3) '"', [])
  | _, [] => none
  | .nothing, c :: rest => readLong c fun pending => longBasicFrom pending rest
  | .escape, c :: rest =>
    if c = '\n' then longBasicFrom .gap rest
    else if c = ' ' ∨ c = '\t' ∨ c = '\r' then longBasicFrom .lineEnd rest
    else readEscape c fun pending => longBasicFrom pending rest
  | .code digits value, c :: rest => readCode digits value c fun pending => longBasicFrom pending rest
  | .quotes count, c :: rest =>
    if c = '"' ∧ count < 5 then longBasicFrom (.quotes (count + 1)) rest
    else if count < 3 then
      prepend (List.replicate count '"') (readLong c fun pending => longBasicFrom pending rest)
    else some (List.replicate (count - 3) '"', c :: rest)
  | .lineEnd, c :: rest =>
    if c = '\n' then longBasicFrom .gap rest
    else if c = ' ' ∨ c = '\t' ∨ c = '\r' then longBasicFrom .lineEnd rest
    else none
  | .gap, c :: rest =>
    if c = '\n' ∨ c = ' ' ∨ c = '\t' ∨ c = '\r' then longBasicFrom .gap rest
    else readLong c fun pending => longBasicFrom pending rest

/-! ## Single quotes -/

/-- The text of one line in single quotes. -/
def literal : Scan (List Char)
  | [] => none
  | c :: rest =>
    if c = '\'' then some ([], rest)
    else if isPlain c then prepend [c] (literal rest)
    else none

/-- The text of several lines in single quotes, of which `count` were read last. -/
def longLiteralFrom (count : Nat) : Scan (List Char)
  | [] => if count < 3 then none else some (List.replicate (count - 3) '\'', [])
  | c :: rest =>
    if c = '\'' ∧ count < 5 then longLiteralFrom (count + 1) rest
    else if 3 ≤ count then some (List.replicate (count - 3) '\'', c :: rest)
    else if isPlainOrEnd c then prepend (List.replicate count '\'' ++ [c]) (longLiteralFrom 0 rest)
    else none
termination_by structural cs => cs

/-! ## All forms -/

/-- Leaves out a line end right after the opening quotes. -/
def dropLineEnd : List Char → List Char
  | '\n' :: rest => rest
  | '\r' :: '\n' :: rest => rest
  | cs => cs

/-- A text in quotes on one line, as keys are written too. -/
def shortText : Scan String
  | '"' :: rest => (basicFrom .nothing rest).map fun (text, rest) => (String.ofList text, rest)
  | '\'' :: rest => (literal rest).map fun (text, rest) => (String.ofList text, rest)
  | _ => none

/-- A text in quotes of any form. -/
def anyText : Scan String
  | '"' :: '"' :: '"' :: rest =>
    (longBasicFrom .nothing (dropLineEnd rest)).map fun (text, rest) => (String.ofList text, rest)
  | '\'' :: '\'' :: '\'' :: rest =>
    (longLiteralFrom 0 (dropLineEnd rest)).map fun (text, rest) => (String.ofList text, rest)
  | cs => shortText cs

end StepChart.Toml
