/-!
# Rules of a grammar

A grammar gives each of its categories a shape: the alternatives that can stand for it, each a list
of terminals and categories. Two numbers settle which of several readings of a text is meant. The
rank of a construct decides, while a text is read, between ending the construct and going on with
it; the weights of the constructs of a whole reading add up, and the heaviest reading wins.
-/

namespace StepChart.Grammar

/-- What a token can be to a grammar. -/
inductive Terminal where
  | finish | name | newline | number | rune | string
  | mark (text : String)
  | word (text : String)
deriving Repr, DecidableEq, Hashable, Ord, Inhabited

/-- How constructs of one rank group. -/
inductive Associativity where
  | left | right
deriving Repr, DecidableEq, Hashable, Inhabited

/-- A terminal, or any construct of a category. -/
inductive Symbol (κ : Type) where
  | terminal (terminal : Terminal)
  | category (category : κ)
deriving Repr, DecidableEq, Inhabited

/-- A part of an alternative, with the rank of the construct around it. -/
structure Step (κ : Type) where
  symbol : Symbol κ
  rank : Option Int := none
  associativity : Option Associativity := none
deriving Repr, DecidableEq, Inhabited

/-- One way to write a construct. -/
structure Alternative (κ : Type) where
  steps : List (Step κ)
  weight : Int := 0
deriving Repr, DecidableEq, Inhabited

/-- The ways to write a construct. -/
abbrev Shape (κ : Type) := List (Alternative κ)

namespace Shape

variable {κ : Type}

/-- A single symbol. -/
def symbol (symbol : Symbol κ) : Shape κ :=
  [{ steps := [{ symbol }] }]

/-- A single terminal. -/
def terminal (terminal : Terminal) : Shape κ :=
  symbol (.terminal terminal)

/-- A mark. -/
def mark (text : String) : Shape κ :=
  terminal (.mark text)

/-- A word with a meaning of its own. -/
def word (text : String) : Shape κ :=
  terminal (.word text)

/-- A construct of a category. -/
def part (category : κ) : Shape κ :=
  symbol (.category category)

/-- One of several shapes. -/
def oneOf (shapes : List (Shape κ)) : Shape κ :=
  shapes.flatten

/-- Nothing at all. -/
def nothing : Shape κ :=
  [{ steps := [] }]

/-- A shape that may be left out. -/
def optional (shape : Shape κ) : Shape κ :=
  shape ++ nothing

/-- Several shapes one after the other. -/
def inOrder (shapes : List (Shape κ)) : Shape κ :=
  shapes.foldr (fun shape rest => shape.flatMap fun first => rest.map fun more =>
    { steps := first.steps ++ more.steps, weight := first.weight + more.weight }) nothing

/-- Gives the parts that have no rank yet a rank. -/
def ranked (rank : Int) (shape : Shape κ) : Shape κ :=
  shape.map fun alternative =>
    { alternative with
      steps := alternative.steps.map fun step => { step with rank := step.rank <|> some rank } }

/-- Makes constructs group to one side. -/
def grouped (side : Associativity) (shape : Shape κ) : Shape κ :=
  shape.map fun alternative =>
    { alternative with
      steps := alternative.steps.map fun step =>
        { step with associativity := step.associativity <|> some side } }

/-- Adds to the weight of a construct. -/
def weighted (weight : Int) (shape : Shape κ) : Shape κ :=
  shape.map fun alternative => { alternative with weight := alternative.weight + weight }

end Shape

/-- The shape of a category. A category that repeats stands for one or more of its shape in a row. -/
structure Definition (κ : Type) where
  category : κ
  repeats : Bool := false
  shape : Shape κ
deriving Repr, Inhabited

end StepChart.Grammar

/-- A grammar: the definitions of its categories, of which the first is that of a whole text. -/
abbrev StepChart.Grammar (κ : Type) := List (StepChart.Grammar.Definition κ)
