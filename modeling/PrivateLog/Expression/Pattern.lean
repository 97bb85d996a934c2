import PrivateLog.Expression.Path
import PrivateLog.Token.Number

/-!
# Patterns

What a `match` arm, a `let`, a loop and the input of a closure may take apart. A range without one of its ends has the form of
a range.
-/

namespace PrivateLog.Expression

/-- Whether a path rather than a fresh name is ahead. -/
def startsPathPattern (tokens : List Token) : Bool :=
  (isName tokens &&
      (isOperatorOf ["::", "!", ".."] (tokens.drop 1) || isGroup .brace (tokens.drop 1) ||
        isGroup .parenthesis (tokens.drop 1))) ||
    (isWord "self" tokens && isOperator "::" (tokens.drop 1)) ||
    isOperatorOf ["::", "<"] tokens || isWordOf ["Self", "super", "crate"] tokens

/-- Whether a range pattern ends before what is ahead, so that it has no upper bound. -/
def endsPatternRange (tokens : List Token) : Bool :=
  tokens.isEmpty || isWord "if" tokens || isOperatorOf ["|", "=", ",", ";"] tokens ||
    (isOperator ":" tokens && !isOperator "::" tokens)

open PrivateLog.Expression.Symbol in
/-- The production of a part of a pattern. -/
def patternProduction (goal : PatternGoal) (found : Form) (tokens : List Token) : Option (List Symbol) :=
  match goal with
  | .pattern =>
    if isOperator "|" tokens then some [operator "|", pattern .single, pattern .alternatives]
    else some [pattern .single, pattern .alternatives]
  | .alternatives =>
    if isBar tokens then some [operator "|", pattern .single, pattern .alternatives] else some []
  | .single =>
    if startsPathPattern tokens then some [path (.path .value), pattern .afterPath]
    else if isWord "_" tokens then some [word "_"]
    else if isWord "box" tokens then some [word "box", pattern .single, form .plain]
    else if isOperator "-" tokens || isLiteral tokens || isWord "const" tokens then
      some [pattern .bound, pattern .afterBound]
    else if isWordOf ["ref", "mut", "self"] tokens || isName tokens then some [pattern .named]
    else if isOperator "&" tokens then some [operator "&", pattern .reference]
    else if isGroup .parenthesis tokens then some [group .parenthesis (.pattern .list)]
    else if isGroup .bracket tokens then some [group .bracket (.pattern .slice)]
    else if isOperator "..=" tokens then some [operator "..=", pattern .bound, form .range]
    else if isOperator ".." tokens && !isOperator "..." tokens then some [operator "..", pattern .rest]
    else none
  | .named =>
    if isWord "ref" tokens then
      if isWord "mut" (tokens.drop 1) then some [word "ref", word "mut", pattern .binding]
      else some [word "ref", pattern .binding]
    else if isWord "mut" tokens then some [word "mut", pattern .binding]
    else some [pattern .binding]
  | .binding =>
    if isWord "self" tokens then some [word "self", pattern .subpattern] else some [name, pattern .subpattern]
  | .reference =>
    if isWord "mut" tokens then some [word "mut", pattern .single, form .plain] else some [pattern .single, form .plain]
  | .afterPath =>
    if found = .bare && isBang tokens then some [operator "!", tree]
    else if isGroup .brace tokens then some [group .brace (.pattern .fields)]
    else if isGroup .parenthesis tokens then some [group .parenthesis (.pattern .list)]
    else some [pattern .afterBound]
  | .afterBound =>
    if isOperator "..=" tokens then some [operator "..=", pattern .bound]
    else if isOperator "..." tokens then some [operator "...", pattern .bound]
    else if isOperator ".." tokens then some [operator "..", pattern .optionalBound]
    else some []
  | .bound =>
    if isOperator "-" tokens then if isNumber (tokens.drop 1) then some [operator "-", literal] else none
    else if isLiteral tokens then some [literal]
    else if isWord "const" tokens then some [word "const", body]
    else if startsPath tokens then some [path (.path .value)]
    else none
  | .optionalBound => if endsPatternRange tokens then some [form .range] else some [pattern .bound]
  | .rest => if endsPatternRange tokens then some [] else some [pattern .bound, form .range]
  | .subpattern => if isOperator "@" tokens then some [operator "@", pattern .single, form .plain] else some []
  | .list => if tokens.isEmpty then some [] else some [pattern .pattern, pattern .moreList]
  | .moreList => if tokens.isEmpty then some [] else some [operator ",", pattern .list]
  | .slice => if tokens.isEmpty then some [] else some [pattern .element, pattern .moreSlice]
  | .moreSlice => if tokens.isEmpty then some [] else some [operator ",", pattern .slice]
  | .element =>
    if isOperator "|" tokens then some [pattern .pattern, form .plain] else some [pattern .single, pattern .afterElement]
  | .afterElement =>
    -- a range without both ends is no element on its own
    if isBar tokens then some [pattern .alternatives, form .plain]
    else if found = .range then none
    else some []
  | .fields => if tokens.isEmpty then some [] else some [pattern .someFields]
  | .someFields =>
    if isOperator "#" tokens then some [operator "#", tag, pattern .someFields]
    else if isOperator ".." tokens then some [operator ".."]
    else some [pattern .field, pattern .moreFields]
  | .field =>
    match tokens with
    | .literal text :: _ =>
      if Number.isPosition text.toList then some [position, operator ":", pattern .pattern] else none
    | tokens =>
      if isWordOf ["box", "ref", "mut"] tokens then some (wordsAhead ["box", "ref", "mut"] tokens ++ [name])
      else some [name, pattern .fieldPattern]
  | .fieldPattern => if isOperator ":" tokens then some [operator ":", pattern .pattern] else some []
  | .moreFields => if tokens.isEmpty then some [] else some [operator ",", pattern .fields]

end PrivateLog.Expression
