import PrivateLog.Template.Reader

/-!
# Logging calls in source text

A logging call is written as an optional logger, a template and named arguments, with commas between them and perhaps
one at the end: `logger, "template", name = value, …`. This module reads the tokens of a call. `Invocation.template`
reads the template in turn, and places what it finds: in a plain literal, of which the text is its value between quotes,
each part has a place of its own; in any other literal everything stands at the literal as a whole.
-/

namespace PrivateLog

/-- Why a source text is no logging call: it consists of no tokens, its tokens do not follow the grammar, or it breaks a
rule that has a message. -/
inductive SourceError where
  | noTokens
  | ungrammatical
  | diagnostic (diagnostic : Diagnostic)
  deriving DecidableEq, Repr

/-- A logging call: the logger it names, its template literal as written and as read, and its named arguments. -/
structure Invocation where
  logger : Option (List Token)
  literal : Located String
  value : String
  named : List NamedArgument
  deriving Repr

namespace Invocation

/-- Reads an expression from the beginning of some tokens. -/
def readExpression? (leftovers : Expression.Leftovers) (tokens : List (Located Token)) :
    Option (List Token × List (Located Token)) := do
  let (expression, rest) ← Expression.readFrom leftovers (tokens.map (·.value))
  return (expression, tokens.drop (tokens.length - rest.length))

/-- Reads named arguments up to the end, each with a comma in front; `fuel` bounds their number. -/
def readNamed? : Nat → List (Located Token) → Option (List NamedArgument)
  | 0, _ => none
  | _ + 1, [] => some []
  | fuel + 1, ⟨.punct ',' _, _⟩ :: tokens =>
    match tokens with
    | [] => some []
    | ⟨.ident name, place⟩ :: ⟨.punct '=' _, _⟩ :: rest => do
      guard (Expression.isNameText name)
      let (value, rest) ← readExpression? .refused rest
      let named ← readNamed? fuel rest
      return ⟨name, place, value⟩ :: named
    | _ => none
  | _ + 1, _ => none

/-- Reads the template literal at the beginning of some tokens, and the named arguments behind it. -/
def readTemplate (logger : Option (List Token)) (tokens : List (Located Token)) : Except SourceError Invocation :=
  let missing (span : Span) : SourceError := .diagnostic ⟨.expectedTemplate, span⟩
  match tokens with
  | [] => .error (missing ⟨0, 0⟩)
  | ⟨.literal text, span⟩ :: rest =>
    match StringLiteral.value? text with
    | none => .error (missing span)
    | some value =>
      match readNamed? (rest.length + 1) rest with
      | some named => .ok ⟨logger, ⟨text, span⟩, value, named⟩
      | none => .error .ungrammatical
  | ⟨_, span⟩ :: _ => .error (missing span)

/-- Whether a text literal stands at the beginning of some tokens. -/
def startsTemplate : List (Located Token) → Bool
  | ⟨.literal text, _⟩ :: _ => (StringLiteral.value? text).isSome
  | _ => false

/-- Reads the tokens of a logging call. Tokens left over inside brackets of the logger are complained about only when
everything else is in order. -/
def ofTokens (tokens : List (Located Token)) : Except SourceError Invocation :=
  if tokens.isEmpty then .error (.diagnostic ⟨.emptySource, ⟨0, 0⟩⟩)
  else if startsTemplate tokens then readTemplate none tokens
  else
    match readExpression? .kept tokens with
    | some (logger, ⟨.punct ',' _, _⟩ :: rest) => do
      let invocation ← readTemplate (some logger) rest
      if (readExpression? .refused tokens).isSome then return invocation else throw .ungrammatical
    | _ => .error .ungrammatical

/-- Reads a source text as a logging call. -/
def ofSource (source : String) : Except SourceError Invocation :=
  match Token.locate? source.toList with
  | some tokens => ofTokens tokens
  | none => .error .noTokens

/-- Whether the template literal is its value between quotes. -/
def isPlain (invocation : Invocation) : Bool :=
  invocation.literal.value.toList == '"' :: (invocation.value.toList ++ ['"'])

/-- Where a part of the template's value stands in the source. -/
def place (invocation : Invocation) (part : Span) : Span :=
  let literal := invocation.literal.span
  if invocation.isPlain then ⟨literal.start + 1 + part.start, literal.start + 1 + part.stop⟩ else literal

/-- Reads the template of a logging call. -/
def template (invocation : Invocation) : Except SourceError Template :=
  match Template.read invocation.value.toList invocation.named invocation.place with
  | .ok template => .ok template
  | .error diagnostic => .error (.diagnostic diagnostic)

end Invocation

end PrivateLog
