import PrivateLog.Expression.Lookahead
import PrivateLog.Expression.Symbol

/-!
# Paths

Names joined by `::`, with arguments between angle brackets, and paths that begin with a type in angle brackets. A path
without arguments and qualifier is `bare`. The paths of macros and attributes are names alone.
-/

namespace PrivateLog.Expression

/-- Words that stand for a whole segment of a path and take no arguments. -/
def segmentWords : List String :=
  ["super", "self", "crate", "try"]

/-- Words in their order, as far as they are ahead. -/
def wordsAhead : List String → List Token → List Symbol
  | [], _ => []
  | text :: texts, tokens =>
    if isWord text tokens then .word text :: wordsAhead texts (tokens.drop 1) else wordsAhead texts tokens

/-- Whether a path may begin with what is ahead. -/
def startsPath (tokens : List Token) : Bool :=
  isName tokens || isOperatorOf ["::", "<"] tokens || isWordOf ["self", "Self", "super", "crate"] tokens

open PrivateLog.Expression.Symbol in
/-- The production of a part of a path. -/
def pathProduction (goal : PathGoal) (tokens : List Token) : Option (List Symbol) :=
  match goal with
  | .names => if isOperator "::" tokens then some [operator "::", path .name] else some [path .name]
  | .name =>
    match tokens with
    | .ident text :: _ =>
      if pathWords.contains text then some [word text, path .moreNames] else some [name, path .moreNames]
    | _ => none
  | .moreNames => if isOperator "::" tokens then some [operator "::", path .name] else some []
  | .path style =>
    if isOperator "<" tokens then
      some [operator "<", type (.type true), path .qualifier, operator ">", operator "::", path (.segments style),
        form .plain]
    else if isOperator "::" tokens then some [operator "::", form .bare, path (.segments style)]
    else some [form .bare, path (.segments style)]
  | .qualifier => if isWord "as" tokens then some [word "as", path (.path .type)] else some []
  | .segments style => some [path (.segment style), path (.moreSegments style)]
  | .moreSegments style =>
    if isOperator "::" tokens && !isGroup .parenthesis (tokens.drop 2) then
      some [operator "::", path (.segments style)]
    else some []
  | .segment style =>
    match tokens with
    | .ident text :: _ =>
      if segmentWords.contains text then some [word text]
      else if text = "Self" then some [word text, path (.arguments style)]
      else some [name, path (.arguments style)]
    | _ => none
  | .arguments style =>
    if isOperator "::" tokens && isOperator "<" (tokens.drop 2) then
      some [operator "::", operator "<", path .argumentList, operator ">", form .plain]
    else if style = .type && isOperator "<" tokens && !isOperator "<=" tokens then
      some [operator "<", path .argumentList, operator ">", form .plain]
    else if style = .type && isGroup .parenthesis tokens then
      some [group .parenthesis (.type .list), type (.result false), form .plain]
    else if style = .type && isOperator "::" tokens && isGroup .parenthesis (tokens.drop 2) then
      some [operator "::", group .parenthesis (.type .list), type (.result false), form .plain]
    else some []
  | .argumentList =>
    if isOperator ">" tokens then some [] else some [path .argument, path .moreArguments]
  | .moreArguments =>
    if isOperator ">" tokens then some [] else some [operator ",", path .argumentList]
  | .argument =>
    if isLifetime tokens && !isOperator "+" (tokens.drop 2) then some [lifetime]
    else if isOperator "-" tokens || isLiteral tokens || isGroup .brace tokens then some [path .argumentValue]
    else some [type (.type true), path .equated]
  | .argumentValue =>
    if isOperator "-" tokens then if isNumber (tokens.drop 1) then some [operator "-", literal] else none
    else if isGroup .brace tokens then some [body]
    else if isName tokens then some [name]
    else some [literal]
  | .equated =>
    if isOperator "=" tokens then
      if isOperator "-" (tokens.drop 1) || isLiteral (tokens.drop 1) || isGroup .brace (tokens.drop 1) then
        some [operator "=", path .argumentValue]
      else some [operator "=", type (.type true)]
    else if isOperator ":" tokens then some [operator ":", type (.boundList false)]
    else some []

end PrivateLog.Expression
