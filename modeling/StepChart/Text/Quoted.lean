import StepChart.Text.Unprintable

/-!
# Quoted text

Names and labels are written so that every line of a diagram stays one line. A backslash stands
before a double quote and before another backslash, the common controls have a letter each, and
every other character that leaves no mark is spelled by its code point in braces.
-/

namespace StepChart.Text

/-- A code point in lower-case hexadecimal digits, between braces, after a backslash and the letter
u. -/
def codePointEscape (c : Char) : List Char :=
  '\\' :: 'u' :: '\x7b' :: (Nat.toDigits 16 c.toNat ++ ['\x7d'])

/-- How one character is written in quoted text. -/
def escapeChar (c : Char) : List Char :=
  if c = '"' then ['\\', '"']
  else if c = '\\' then ['\\', '\\']
  else if c = '\t' then ['\\', 't']
  else if c = '\n' then ['\\', 'n']
  else if c = '\r' then ['\\', 'r']
  else if c = Char.ofNat 0 then ['\\', '0']
  else if isUnprintable c then codePointEscape c
  else [c]

/-- The escaped form of a text, without the quotes around it. -/
def escape (text : String) : String :=
  String.ofList (text.toList.flatMap escapeChar)

/-- A text in double quotes. -/
def quote (text : String) : String :=
  "\"" ++ escape text ++ "\""

end StepChart.Text
