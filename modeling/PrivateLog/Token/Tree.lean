import PrivateLog.Token.Lexeme

/-!
# From lexemes to tokens

Brackets have to match: each closing bracket ends the group that the last open bracket of its kind began. `nest` keeps
the groups that are still open, innermost first, and what was read before each of them.
-/

namespace PrivateLog.Token

/-- A group that is not yet closed: its bracket, where that stands, and the tokens in front of it, last first. -/
structure OpenGroup where
  delimiter : Delimiter
  start : Nat
  before : List (Located Token)

/-- Builds the tokens of a list of lexemes inside the groups of `pending`, behind the tokens of `done`, last first. -/
def nest (pending : List OpenGroup) (done : List (Located Token)) :
    List (Located Lexeme) → Option (List (Located Token))
  | [] => if pending.isEmpty then some done.reverse else none
  | ⟨.leaf token, span⟩ :: lexemes => nest pending (⟨token, span⟩ :: done) lexemes
  | ⟨.opening delimiter, span⟩ :: lexemes => nest (⟨delimiter, span.start, done⟩ :: pending) [] lexemes
  | ⟨.closing delimiter, span⟩ :: lexemes =>
    match pending with
    | [] => none
    | innermost :: pending =>
      if innermost.delimiter = delimiter then
        let token := Token.group delimiter (done.reverse.map (·.value))
        nest pending (⟨token, ⟨innermost.start, span.stop⟩⟩ :: innermost.before) lexemes
      else none

/-- The tokens of a source text with the places where they stand, if it is a source text. -/
def locate? (text : List Char) : Option (List (Located Token)) := do
  nest [] [] (← Lexeme.scan text)

/-- The tokens of a source text, if it is one. -/
def read? (text : List Char) : Option (List Token) :=
  (·.map (·.value)) <$> locate? text

/-- The empty text has no tokens. -/
theorem read?_nil : read? [] = some [] := rfl

end PrivateLog.Token
