import StepChart.Go.Token
import StepChart.Reading.Tape

/-!
# Tokens as terminals

What a token is depends on what can stand there. A word has its own meaning wherever that meaning is
possible, and is a name elsewhere. Marks that stand side by side are read as the longest mark that is
possible. A line break is a terminal where a statement may end, and nothing elsewhere.

Token number `i` stands at position `2 * i`; the position is `2 * i + 1` once the line break before
it has been taken, or, at the end of the text, the null character that may stand for it. No terminal has
an empty text: that of the end is a null character, whatever it stands for.
-/

namespace StepChart.Go

open Grammar Reading Syntax

/-- The text of marks that stand side by side, and the byte at which they stop. -/
def sideBySide (tokens : Array Token) : (count index : Nat) → Option (String × Nat)
  | 0, _ => none
  | 1, index => do
    let token ← tokens[index]?
    if token.kind = .mark then some (token.text, token.span.stop) else none
  | count + 2, index => do
    let token ← tokens[index]?
    let next ← tokens[index + 1]?
    let (text, stop) ← sideBySide tokens (count + 1) (index + 1)
    if token.kind = .mark ∧ token.span.stop = next.span.start then some (token.text ++ text, stop) else none

/-- The most characters a mark has. -/
def longestMark : Nat := 3

/-- The longest mark that can be used at a token. -/
def markAt (tokens : Array Token) (usable : Terminal → Bool) (index start : Nat) : Option Lookahead :=
  (List.range longestMark).reverse.findSome? fun more => do
    let (text, stop) ← sideBySide tokens (more + 1) index
    if usable (.mark text) then some ⟨.mark text, text, ⟨start, stop⟩, 2 * (index + more + 1)⟩ else none

/-- A null character, which the end of a text may stand for. -/
def nullMark : Terminal := .mark "\x00"

/-- The terminal at a position, given those that can be used. -/
def lookAt (tokens : Array Token) (usable : Terminal → Bool) (position : Nat) : Option Lookahead := do
  let index := position / 2
  let taken : Bool := position % 2 = 1
  let token ← tokens[index]?
  let here : Span := ⟨token.span.start, token.span.start⟩
  let whole (terminal : Terminal) : Option Lookahead :=
    some ⟨terminal, token.text, token.span, 2 * (index + 1)⟩
  if token.afterNewline && !taken && usable .newline then
    some ⟨.newline, "\n", here, 2 * index + 1⟩
  else
    match token.kind with
    | .name => whole (if usable (.word token.text) then .word token.text else .name)
    | .number => whole .number
    | .rune => whole .rune
    | .string => whole .string
    | .mark => markAt tokens usable index token.span.start
    | .finish =>
      if !usable .finish && !taken && usable nullMark then some ⟨nullMark, "\x00", here, 2 * index + 1⟩
      else some ⟨.finish, "\x00", here, position⟩

/-- Tokens as a reader sees them. -/
def tape (tokens : Array Token) : Tape where
  length := 2 * tokens.size
  place position := (tokens[position / 2]?).elim 0 (·.span.start)
  look := lookAt tokens

end StepChart.Go
