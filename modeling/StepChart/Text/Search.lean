/-!
# Finding text in text

Searches over the characters of a text: how it starts and ends, occurrence of one text in another,
and the place of a separator.
-/

namespace StepChart.Text

/-- The text starts with `part`. -/
def startsWith (part text : String) : Bool :=
  part.toList.isPrefixOf text.toList

/-- The text ends with `part`. -/
def endsWith (part text : String) : Bool :=
  part.toList.isSuffixOf text.toList

/-- The characters `part` stand somewhere in the text, side by side. -/
def occursIn (part : List Char) : List Char → Bool
  | [] => part.isEmpty
  | c :: cs => part.isPrefixOf (c :: cs) || occursIn part cs

/-- What follows the first separator, if there is one. -/
def afterFirst? (separator : Char) : List Char → Option (List Char)
  | [] => none
  | c :: cs => if c = separator then some cs else afterFirst? separator cs

/-- What follows the last separator; the whole text if there is none. -/
def afterLast (separator : Char) (cs : List Char) : List Char :=
  (cs.reverse.takeWhile (· != separator)).reverse

end StepChart.Text
