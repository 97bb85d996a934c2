import PrivateLog.Expression.Operator
import PrivateLog.Expression.Path
import PrivateLog.Token.Number

/-!
# Expressions

Operands with the operators in front of, behind and between them, and what an operand may be. An operand to the right of
an operator takes in the operators that bind more strongly (`climb`).
-/

namespace PrivateLog.Expression

/-- Whether a closure is ahead. -/
def startsClosure (tokens : List Token) : Bool :=
  isOperator "|" tokens || isWordOf ["move", "static"] tokens || isBinder tokens ||
    (isWord "const" tokens && !isGroup .brace (tokens.drop 1)) ||
    (isWord "async" tokens && (isOperator "|" (tokens.drop 1) || isWord "move" (tokens.drop 1)))

/-- Whether an asynchronous block is ahead. -/
def startsAsyncBlock (tokens : List Token) : Bool :=
  isWord "async" tokens &&
    (isGroup .brace (tokens.drop 1) || (isWord "move" (tokens.drop 1) && isGroup .brace (tokens.drop 2)))

/-- Whether an operand is ahead that begins with a path. -/
def startsPathOperand (tokens : List Token) : Bool :=
  startsPath tokens || (isWord "try" tokens && (isOperator "!" (tokens.drop 1) || isOperator "::" (tokens.drop 1)))

/-- Whether a range without a lower end is ahead behind an attribute, which it cannot have. -/
def isTaggedRange (tokens : List Token) : Bool :=
  isOperator "#" tokens && isGroup .bracket (tokens.drop 1) && isOperator ".." (tokens.drop 2)

/-- The words that may stand in front of a closure, as far as they are ahead. -/
def closureWords (tokens : List Token) : List Symbol :=
  wordsAhead ["const", "static", "async", "move"] tokens

open PrivateLog.Expression.Symbol in
/-- The production of an operand without the operators around it. -/
def atomProduction (struct : Bool) (tokens : List Token) : Option (List Symbol) :=
  if isLiteral tokens then some [literal, form .plain]
  else if startsAsyncBlock tokens then
    if isWord "move" (tokens.drop 1) then some [word "async", word "move", block, form .plain]
    else some [word "async", block, form .plain]
  else if isWord "try" tokens && isGroup .brace (tokens.drop 1) then some [word "try", block, form .block]
  else if startsClosure tokens then some [value (.closure struct), form .plain]
  else if isWord "builtin" tokens && isOperator "#" (tokens.drop 1) then
    some [word "builtin", operator "#", name, value .builtin, form .plain]
  else if startsPathOperand tokens then some [path (.path .value), value (.afterPath struct)]
  else if isGroup .parenthesis tokens then some [group .parenthesis (.value .list), form .plain]
  else if isWord "break" tokens then
    if isLifetime (tokens.drop 1) then
      if isOperator ":" (tokens.drop 3) then none
      else some [word "break", lifetime, value (.breakValue struct), form .plain]
    else some [word "break", value (.breakValue struct), form .plain]
  else if isWord "continue" tokens then some [word "continue", value .optionalLifetime, form .plain]
  else if isWord "return" tokens then some [word "return", value .optionalValue, form .plain]
  else if isWord "become" tokens then some [word "become", expression, form .plain]
  else if isGroup .bracket tokens then some [group .bracket (.value .array), form .plain]
  else if isWord "let" tokens then
    some [word "let", pattern .pattern, operator "=", value (.operand struct), value (.operators .compare struct),
      form .plain]
  else if isWord "if" tokens then some [value .conditional]
  else if isWordOf ["while", "for", "loop"] tokens then some [value .labelled]
  else if isWord "match" tokens then
    some [word "match", value (.expression false), group .brace (.statement .matched), form .block]
  else if isWord "yield" tokens then some [word "yield", value .optionalValue, form .plain]
  else if isWord "unsafe" tokens then some [word "unsafe", body, form .block]
  else if isWord "const" tokens then some [word "const", body, form .block]
  else if isGroup .brace tokens then some [body, form .block]
  else if isOperator "..=" tokens then
    some [operator "..=", value (.operand struct), value (.climb .range struct), form .range]
  else if isOperator ".." tokens && !isOperator "..." tokens then
    some [operator "..", value (.rangeEnd struct), form .range]
  else if isWord "_" tokens then some [word "_", form .plain]
  else if isLifetime tokens then some [lifetime, operator ":", value .labelled]
  else none

open PrivateLog.Expression.Symbol in
/-- The production of the operators behind an operand, as far as they bind at least as strongly as `floor`. -/
def operatorProduction (floor : Precedence) (struct : Bool) (found : Form) (tokens : List Token) :
    Option (List Symbol) :=
  if found = .range then some []
  else
    match binaryOperator? tokens with
    | some (text, precedence) =>
      if precedence.rank < floor.rank then some []
      else if precedence = .compare then
        if found = .comparison then none
        else
          some [operator text, value (.operand struct), value (.climb precedence struct), form .comparison,
            value (.operators floor struct)]
      else
        some [operator text, value (.operand struct), value (.climb precedence struct), form .plain,
          value (.operators floor struct)]
    | none =>
      if isAssignment tokens && floor.rank ≤ Precedence.assign.rank then
        some [operator "=", value (.operand struct), value (.climb .assign struct), form .plain,
          value (.operators floor struct)]
      else if isOperator ".." tokens && floor.rank ≤ Precedence.range.rank then
        if isOperator "..=" tokens then
          some [operator "..=", value (.operand struct), value (.climb .range struct), form .range]
        else if isOperator "..." tokens then none
        else some [operator "..", value (.rangeEnd struct), form .range]
      else if isWord "as" tokens then
        some [word "as", type (.type false), value .afterCast, form .plain, value (.operators floor struct)]
      else some []

open PrivateLog.Expression.Symbol in
/-- The production of a part of an expression. -/
def valueProduction (goal : ValueGoal) (found : Form) (tokens : List Token) : Option (List Symbol) :=
  match goal with
  | .expression struct => some [value (.operand struct), value (.operators .lowest struct)]
  | .operand struct =>
    if isTaggedRange tokens then none
    else if isOperator "#" tokens then some [operator "#", tag, value (.operand struct)]
    else if isOperator "&" tokens then
      if isWord "raw" (tokens.drop 1) && isWord "mut" (tokens.drop 2) then
        some [operator "&", word "raw", word "mut", value (.operand struct), form .plain]
      else if isWord "raw" (tokens.drop 1) && isWord "const" (tokens.drop 2) then
        some [operator "&", word "raw", word "const", value (.operand struct), form .plain]
      else if isWord "mut" (tokens.drop 1) then
        some [operator "&", word "mut", value (.operand struct), form .plain]
      else some [operator "&", value (.operand struct), form .plain]
    else if isOperator "*" tokens then some [operator "*", value (.operand struct), form .plain]
    else if isOperator "!" tokens then some [operator "!", value (.operand struct), form .plain]
    else if isOperator "-" tokens then some [operator "-", value (.operand struct), form .plain]
    else some [value (.atom struct), value .trailers]
  | .operators floor struct => operatorProduction floor struct found tokens
  | .climb floor struct =>
    let next := precedenceAhead tokens
    if found = .range then some []
    else if floor.rank < next.rank || (floor = .assign && next = .assign) then
      some [value (.operators next struct), value (.climb floor struct)]
    else some []
  | .rangeEnd struct =>
    if endsRange struct tokens then some [] else some [value (.operand struct), value (.climb .range struct)]
  | .afterCast =>
    if isDot tokens || isOperator "?" tokens || isGroup .bracket tokens || isGroup .parenthesis tokens then none
    else some []
  | .atom struct => atomProduction struct tokens
  | .labelled =>
    if isWord "while" tokens then some [word "while", value (.expression false), body, form .block]
    else if isWord "for" tokens then
      some [word "for", pattern .pattern, word "in", value (.expression false), body, form .block]
    else if isWord "loop" tokens then some [word "loop", body, form .block]
    else if isGroup .brace tokens then some [body, form .block]
    else none
  | .trailers =>
    if isGroup .parenthesis tokens then
      some [group .parenthesis (.value .list), form .plain, value .trailers]
    else if isGroup .bracket tokens then
      some [group .bracket (.value (.expression true)), form .plain, value .trailers]
    else if found = .range then some []
    else if isDot tokens then some [operator ".", value (.member true), form .plain, value .trailers]
    else if isOperator "?" tokens then some [operator "?", form .plain, value .trailers]
    else some []
  | .member path =>
    match tokens with
    | .literal text :: _ =>
      match Number.fieldPath? text.toList with
      | some (positions, dotted) =>
        if dotted then (if path then some [position, form .plain, value (.member false)] else none)
        else if path || positions.length = 1 then some [position]
        else none
      | none => none
    | _ => if isWord "await" tokens then some [word "await"] else some [name, value .afterMember]
  | .afterMember =>
    if isOperator "::" tokens then
      some [operator "::", operator "<", Symbol.path .argumentList, operator ">", group .parenthesis (.value .list)]
    else if isGroup .parenthesis tokens then some [group .parenthesis (.value .list)]
    else some []
  | .afterPath struct =>
    if found = .bare && isBang tokens then
      some [operator "!", tree, form (if isGroup .brace (tokens.drop 1) then .bracedMacro else .plain)]
    else if struct && isGroup .brace tokens then some [group .brace (.value .fields), form .plain]
    else some [form .plain]
  | .list => if tokens.isEmpty then some [] else some [expression, value .moreList]
  | .moreList => if tokens.isEmpty then some [] else some [operator ",", value .list]
  | .array => if tokens.isEmpty then some [] else some [expression, value .afterElement]
  | .afterElement => if isOperator ";" tokens then some [operator ";", expression] else some [value .moreList]
  | .fields =>
    if tokens.isEmpty then some []
    else if isOperator ".." tokens then some [operator "..", value .rest]
    else some [value .field, value .moreFields]
  | .field =>
    match tokens with
    | .literal text :: _ =>
      if Number.isPosition text.toList then some [position, operator ":", expression] else none
    | .punct '#' _ :: _ => some [operator "#", tag, value .field]
    | _ => some [name, value .fieldValue]
  | .fieldValue => if isOperator ":" tokens then some [operator ":", expression] else some []
  | .moreFields => if tokens.isEmpty then some [] else some [operator ",", value .fields]
  | .rest => if tokens.isEmpty then some [] else some [expression]
  | .conditional => some [word "if", value (.expression false), block, value .otherwise]
  | .otherwise =>
    if isWord "else" tokens then
      if isWord "if" (tokens.drop 1) then some [word "else", value .conditional]
      else some [word "else", block, form .block]
    else some [form .block]
  | .breakValue struct =>
    if startsExpression tokens && (struct || !isGroup .brace tokens) then some [expression] else some []
  | .optionalValue => if startsExpression tokens then some [expression] else some []
  | .optionalLifetime => if isLifetime tokens then some [lifetime] else some []
  | .closure struct =>
    if isWord "for" tokens then
      some [word "for", operator "<", type .lifetimes, operator ">", value (.closureInputs struct)]
    else some [value (.closureInputs struct)]
  | .closureInputs struct =>
    some (closureWords tokens ++ [operator "|", value .inputs, operator "|", value (.closureBody struct)])
  | .builtin => if isGroup .parenthesis tokens then some [tree] else none
  | .inputs => if isOperator "|" tokens then some [] else some [value .input, value .moreInputs]
  | .input =>
    if isOperator "#" tokens then some [operator "#", tag, value .input]
    else some [pattern .single, statement .ascription]
  | .moreInputs => if isOperator "|" tokens then some [] else some [operator ",", value .inputs]
  | .closureBody struct =>
    if isOperator "->" tokens then some [operator "->", type (.type true), block]
    else some [value (.expression struct)]

end PrivateLog.Expression
