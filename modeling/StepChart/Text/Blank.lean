import StepChart.Text.CodePoint

/-!
# Blank text

The characters that show nothing but space, as the Unicode property `White_Space` lists them.
-/

namespace StepChart.Text

/-- The ranges of blank characters. -/
def blankRanges : List (Nat × Nat) :=
  [(0x9, 0xD), (0x20, 0x20), (0x85, 0x85), (0xA0, 0xA0), (0x1680, 0x1680), (0x2000, 0x200A), (0x2028, 0x2029),
    (0x202F, 0x202F), (0x205F, 0x205F), (0x3000, 0x3000)]

/-- The character is blank. -/
def isBlank (c : Char) : Bool :=
  inRanges blankRanges c.toNat

/-- All characters of the text are blank. -/
def isBlankText (text : String) : Bool :=
  text.toList.all isBlank

end StepChart.Text
