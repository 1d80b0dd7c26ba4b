import StepChart.Go.Lexeme

/-!
# Tokens

Blanks and comments only separate tokens. Of a line break it is kept that it stands before a token,
because it may end a statement there; the line breaks inside a comment do not count.
-/

namespace StepChart.Go

open Syntax

/-- The classes of tokens; the last token of every source is `finish`. -/
inductive TokenKind where
  | name | number | rune | string | mark | finish
deriving Repr, DecidableEq, Inhabited

/-- A token with its place, and whether a line break stands between it and the token before it. -/
structure Token where
  kind : TokenKind
  text : String
  span : Span
  afterNewline : Bool
deriving Repr, DecidableEq, Inhabited

/-- The class of token a lexeme is, if it is one. -/
def LexemeKind.token? : LexemeKind → Option TokenKind
  | .blank | .newline | .comment => none
  | .name => some .name
  | .number => some .number
  | .rune => some .rune
  | .string => some .string
  | .mark => some .mark

/-- The tokens among the lexemes of a text that ends at byte `stop`; `newline` tells whether a line
break has passed since the last token. -/
def tokensOf (stop : Nat) (newline : Bool) : List Lexeme → List Token
  | [] => [⟨.finish, "", ⟨stop, stop⟩, newline⟩]
  | lexeme :: rest =>
    match lexeme.kind.token? with
    | some kind => ⟨kind, lexeme.text, lexeme.span, newline⟩ :: tokensOf stop false rest
    | none => tokensOf stop (newline || lexeme.kind = .newline) rest

end StepChart.Go
