import PrivateLog.Expression.Path

/-!
# Types

The types that occur in casts, in the arguments of paths, in items, and behind the colon of a closure's input or of a `let`, with
the bounds of objects and of generic parameters.
-/

namespace PrivateLog.Expression

/-- Whether a bound may begin with what is ahead, behind another one. -/
def startsBound (style : BoundStyle) (tokens : List Token) : Bool :=
  isIdent tokens || isLifetime tokens || isGroup .parenthesis tokens || isOperatorOf ["::", "?"] tokens ||
    (style ≠ .object && (isGroup .bracket tokens || isOperator "~" tokens))

/-- Whether a list of bounds ends before what is ahead. -/
def endsBounds (aliased : Bool) (tokens : List Token) : Bool :=
  tokens.isEmpty || isWord "where" tokens || isOperator ";" tokens ||
    (!aliased && (isGroup .brace tokens || isOperatorOf [",", ">", "="] tokens))

/-- Whether a name with its type behind a colon is ahead, as for the parameters of a function pointer. -/
def isNamed (tokens : List Token) : Bool :=
  (isName tokens || isWord "_" tokens) && isColon (tokens.drop 1)

/-- Whether parameters of any number are ahead, with or without a name. -/
def isVariadic (tokens : List Token) : Bool :=
  isOperator "..." tokens ||
    ((isName tokens || isWord "_" tokens) && isOperator ":" (tokens.drop 1) && isOperator "..." (tokens.drop 2))

/-- The name ahead, or the underscore that stands for one. -/
def nameOrUnderscore (tokens : List Token) : Symbol :=
  if isWord "_" tokens then .word "_" else .name

open PrivateLog.Expression.Symbol in
/-- The production of a part of a type. -/
def typeProduction (goal : TypeGoal) (found : Form) (tokens : List Token) : Option (List Symbol) :=
  match goal with
  | .type plus =>
    if isGroup .parenthesis tokens then some [group .parenthesis (.type .parenthesized), type (.moreBounds .object plus)]
    else if isGroup .bracket tokens then some [group .bracket (.type .element)]
    else if isWordOf ["fn", "unsafe", "extern"] tokens then some [type .function]
    else if isWord "for" tokens then
      some [word "for", operator "<", type .lifetimes, operator ">", type (.bindable plus)]
    else if startsPath tokens then some [path (.path .type), type (.named plus)]
    else if isWord "dyn" tokens then
      if isOperator "*" (tokens.drop 1) then some [word "dyn", operator "*", type (.bounds .object plus)]
      else some [word "dyn", type (.bounds .object plus)]
    else if isWord "impl" tokens then some [word "impl", type (.bounds .hidden plus)]
    else if isOperator "*" tokens then
      if isWord "mut" (tokens.drop 1) then some [operator "*", word "mut", type (.type false)]
      else some [operator "*", word "const", type (.type false)]
    else if isOperator "&" tokens then
      if isLifetime (tokens.drop 1) then
        if isWord "mut" (tokens.drop 3) then some [operator "&", lifetime, word "mut", type (.type false)]
        else some [operator "&", lifetime, type (.type false)]
      else if isWord "mut" (tokens.drop 1) then some [operator "&", word "mut", type (.type false)]
      else some [operator "&", type (.type false)]
    else if isOperator "!" tokens then some [operator "!"]
    else if isWord "_" tokens then some [word "_"]
    else if isLifetime tokens then some [type (.bounds .object true)]
    else none
  | .bindable plus =>
    if isWordOf ["fn", "unsafe", "extern"] tokens then some [type .function]
    else if isName tokens || isWordOf ["super", "self", "Self", "crate"] tokens then
      some [path (.path .type), type (.named plus)]
    else none
  | .named plus =>
    if found = .bare && isBang tokens then some [operator "!", tree]
    else some [type (.moreBounds .object plus)]
  | .list => if tokens.isEmpty then some [] else some [type (.type true), type .moreList]
  | .moreList => if tokens.isEmpty then some [] else some [operator ",", type .list]
  | .parenthesized =>
    if isLifetime tokens then some [type (.bounds .object true)]
    else if isOperator "?" tokens then some [type (.trait .object)]
    else some [type .list]
  | .element => some [type (.type true), type .length]
  | .length => if isOperator ";" tokens then some [operator ";", expression] else some []
  | .lifetimes =>
    if isOperator ">" tokens then some [] else some [type .lifetimeParameter, type .moreLifetimes]
  | .lifetimeParameter =>
    if isOperator "#" tokens then some [operator "#", tag, type .lifetimeParameter] else some [lifetime]
  | .moreLifetimes => if isOperator ">" tokens then some [] else some [operator ",", type .lifetimes]
  | .bounds style plus =>
    -- a lifetime, or a list of captured parameters, does not make a type on its own
    if isLifetime tokens then if plus then some [lifetime, operator "+", type (.bounds style plus)] else none
    else if style = .hidden && isWord "use" tokens then
      if plus then
        some [word "use", operator "<", type .captures, operator ">", operator "+", type (.bounds style plus)]
      else none
    else some [type (.single style), type (.moreBounds style plus)]
  | .moreBounds style plus =>
    if plus && isOperator "+" tokens then some [operator "+", type (.anotherBound style plus)] else some []
  | .anotherBound style plus =>
    if startsBound style tokens then some [type (.single style), type (.moreBounds style plus)] else some []
  | .boundList aliased =>
    if endsBounds aliased tokens then some [] else some [type (.single .parameter), type (.moreBoundList aliased)]
  | .moreBoundList aliased => if isOperator "+" tokens then some [operator "+", type (.boundList aliased)] else some []
  | .single style =>
    if isLifetime tokens then some [lifetime]
    else if style = .hidden && isWord "use" tokens then
      some [word "use", operator "<", type .captures, operator ">"]
    else if isGroup .parenthesis tokens then some [group .parenthesis (.type (.trait style))]
    else some [type (.trait style)]
  | .trait style =>
    if isWord "for" tokens then
      some [word "for", operator "<", type .lifetimes, operator ">", type (.constantTrait style)]
    else some [type (.constantTrait style)]
  | .constantTrait style =>
    if style = .object then some [type .signedTrait]
    else if isGroup .bracket tokens then some [group .bracket (.type .constant), type .signedTrait]
    else if isWord "const" tokens then some [word "const", type .signedTrait]
    else if isOperator "~" tokens then some [operator "~", word "const", type .signedTrait]
    else some [type .signedTrait]
  | .constant => some [word "const"]
  | .signedTrait =>
    if isOperator "?" tokens then some [operator "?", type .optionalTrait] else some [path (.path .type)]
  | .optionalTrait =>
    if isWord "for" tokens then some [word "for", operator "<", type .lifetimes, operator ">", path (.path .type)]
    else some [path (.path .type)]
  | .captures => if isOperator ">" tokens then some [] else some [type .capture, type .moreCaptures]
  | .capture =>
    if isLifetime tokens then some [lifetime] else if isWord "Self" tokens then some [word "Self"] else some [name]
  | .moreCaptures => if isOperator ">" tokens then some [] else some [operator ",", type .captures]
  | .function => if isWord "unsafe" tokens then some [word "unsafe", type .linked] else some [type .linked]
  | .linked =>
    if isWord "extern" tokens then
      some [word "extern", type .linkage, word "fn", group .parenthesis (.type (.parameters true)), type (.result false)]
    else some [word "fn", group .parenthesis (.type (.parameters true)), type (.result false)]
  | .linkage => if isText tokens then some [literal] else some []
  | .parameters first => if tokens.isEmpty then some [] else some [type (.someParameters first)]
  | .someParameters first =>
    if isOperator "#" tokens then some [operator "#", tag, type (.someParameters first)]
    else if isOperator "..." tokens then some [operator "...", type .optionalComma]
    else if isVariadic tokens then
      some [nameOrUnderscore tokens, operator ":", operator "...", type .optionalComma]
    else some [type (.parameter first), type .moreParameters]
  | .parameter first =>
    -- behind these words no path goes on with two colons
    if first && isWord "mut" tokens && isWord "self" (tokens.drop 1) then
      if isColon (tokens.drop 2) then some [word "mut", word "self", operator ":", type (.type true)]
      else if isOperator ":" (tokens.drop 2) then none
      else some [word "mut", word "self"]
    else if first && isWord "self" tokens && isColon (tokens.drop 1) then
      some [word "self", operator ":", type (.type true)]
    else if isNamed tokens then some [nameOrUnderscore tokens, operator ":", type (.type true)]
    else if isWord "_" tokens && isOperator ":" (tokens.drop 1) then none
    else some [type (.type true)]
  | .moreParameters => if tokens.isEmpty then some [] else some [operator ",", type (.parameters false)]
  | .optionalComma => if tokens.isEmpty then some [] else some [operator ","]
  | .result plus => if isOperator "->" tokens then some [operator "->", type (.type plus)] else some []

end PrivateLog.Expression
