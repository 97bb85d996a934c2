import PrivateLog.Expression.Path

/-!
# Blocks

Statements, the arms of a `match`, and attributes. An expression that begins a statement or stands in an arm ends early
when it is a block, unless a method is called on it; such an expression needs no semicolon or comma behind it.
-/

namespace PrivateLog.Expression

/-- Whether an expression that ends with its block is ahead. -/
def startsBlock (tokens : List Token) : Bool :=
  isWordOf ["if", "while", "loop", "match", "unsafe"] tokens || isGroup .brace tokens || isLifetime tokens ||
    (isWord "for" tokens && !isBinder tokens) ||
    (isWordOf ["try", "const"] tokens && isGroup .brace (tokens.drop 1))

/-- Whether an item is ahead, apart from attributes. -/
def startsItem (tokens : List Token) : Bool :=
  isWordOf ["pub", "extern", "use", "fn", "mod", "type", "struct", "enum", "trait", "impl", "macro"] tokens ||
    (isWord "crate" tokens && !isOperator "::" (tokens.drop 1)) ||
    (isWord "static" tokens && (isWord "mut" (tokens.drop 1) || isName (tokens.drop 1))) ||
    (isWord "const" tokens &&
      !(isGroup .brace (tokens.drop 1) || isWordOf ["static", "move"] (tokens.drop 1) || isOperator "|" (tokens.drop 1) ||
        (isWord "async" (tokens.drop 1) && !isWordOf ["unsafe", "extern", "fn"] (tokens.drop 2)))) ||
    (isWord "unsafe" tokens && !isGroup .brace (tokens.drop 1)) ||
    (isWord "async" tokens && isWordOf ["unsafe", "extern", "fn"] (tokens.drop 1)) ||
    (isWord "union" tokens && isName (tokens.drop 1)) || (isWord "auto" tokens && isWord "trait" (tokens.drop 1)) ||
    (isWord "default" tokens && isWordOf ["unsafe", "impl"] (tokens.drop 1))

/-- What has been passed of a statement last: its braces, and an `else` behind them with the braces behind it. -/
inductive Trail where
  | other
  | braces
  | alternative
  | complete
  deriving DecidableEq, Repr

/-- What has been passed behind one more token. -/
def Trail.next (trail : Trail) : Token → Trail
  | .group .brace _ => if trail = .alternative then .complete else .braces
  | .ident name => if name = "else" ∧ (trail = .braces ∨ trail = .complete) then .alternative else .other
  | _ => .other

/-- Whether the statement ahead ends with an `else` between braces. -/
def endsBraced (trail : Trail) : List Token → Bool
  | [] => false
  | .punct ';' _ :: _ => trail = .complete
  | token :: tokens => endsBraced (trail.next token) tokens

open PrivateLog.Expression.Symbol in
/-- The production of a part of a block. -/
def statementProduction (goal : StatementGoal) (found : Form) (tokens : List Token) : Option (List Symbol) :=
  match goal with
  | .body =>
    if isOperator "#" tokens && isOperator "!" (tokens.drop 1) then
      some [operator "#", operator "!", tag, statement .body]
    else some [statement .statements]
  | .statements =>
    if tokens.isEmpty then some []
    else if isOperator ";" tokens then some [operator ";", statement .statements]
    else some [statement .statement]
  | .statement =>
    if isOperator "#" tokens then some [operator "#", tag, statement .statement]
    else if isMacroStatement tokens then
      some [path .names, operator "!", tree, statement .optionalSemicolon, statement .statements]
    else if isMacroItem tokens then
      if isWord "Self" tokens then none else some [path .names, operator "!", item .macroName, statement .statements]
    else if isWord "let" tokens then
      some [word "let", pattern .single, statement .ascription, statement .initializer, operator ";",
        statement .statements]
    else if startsItem tokens then some [item (.item .plain), statement .statements]
    else some [statement .early, statement .statementEnd]
  | .statementEnd =>
    if tokens.isEmpty then some []
    else if isOperator ";" tokens then some [operator ";", statement .statements]
    else if found = .block || found = .bracedMacro then some [statement .statements]
    else none
  | .optionalSemicolon => if isOperator ";" tokens then some [operator ";"] else some []
  | .ascription => if isOperator ":" tokens then some [operator ":", type (.type true)] else some []
  | .initializer =>
    if isOperator "=" tokens then some [operator "=", expression, statement (.diverging (endsBraced .other tokens))]
    else some []
  | .diverging braced => if !braced && isWord "else" tokens then some [word "else", block] else some []
  | .early =>
    if isOperator "#" tokens then some [operator "#", tag, statement .early]
    else if startsBlock tokens then some [value (.atom true), statement .afterEarly]
    else some [expression]
  | .afterEarly =>
    if isDot tokens || isOperator "?" tokens then some [value .trailers, value (.operators .lowest true)] else some []
  | .matched =>
    if isOperator "#" tokens && isOperator "!" (tokens.drop 1) then
      some [operator "#", operator "!", tag, statement .matched]
    else some [statement .arms]
  | .arms => if tokens.isEmpty then some [] else some [statement .arm]
  | .arm =>
    if isOperator "#" tokens then some [operator "#", tag, statement .arm]
    else some [pattern .pattern, statement .armGuard, operator "=>", statement .early, statement .armEnd]
  | .armGuard => if isWord "if" tokens then some [word "if", expression] else some []
  | .armEnd =>
    if tokens.isEmpty then some []
    else if isOperator "," tokens then some [operator ",", statement .arms]
    else if found = .block then some [statement .arms]
    else none
  | .tag =>
    if isWord "unsafe" tokens then some [word "unsafe", statement .tagValue]
    else some [path .names, statement .tagValue]
  | .tagValue =>
    if isTree tokens then some [tree]
    else if isOperator "=" tokens then
      if isOperator "#" (tokens.drop 1) && isGroup .bracket (tokens.drop 2) then none else some [operator "=", expression]
    else some []

end PrivateLog.Expression
