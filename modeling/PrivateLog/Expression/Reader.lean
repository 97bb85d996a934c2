import PrivateLog.Expression.Item
import PrivateLog.Expression.Pattern
import PrivateLog.Expression.Statement
import PrivateLog.Expression.Type
import PrivateLog.Expression.Value
import PrivateLog.Token.Number

/-!
# Reading expressions

Symbols are fulfilled one after another, from the left. Reading yields the tokens taken, in a normal spacing: the
characters of an operator are joined to one another and to nothing else, and the number of a tuple field is written
plainly, each position behind a dot of its own. The reading of a list of symbols in two parts is the reading of the
parts, one behind the other.
-/

namespace PrivateLog.Expression

/-- What stands for a goal, given the form of what was read last and the tokens ahead. -/
def Goal.production (goal : Goal) (found : Form) (tokens : List Token) : Option (List Symbol) :=
  match goal with
  | .path goal => pathProduction goal tokens
  | .type goal => typeProduction goal found tokens
  | .pattern goal => patternProduction goal found tokens
  | .statement goal => statementProduction goal found tokens
  | .value goal => valueProduction goal found tokens
  | .item goal => itemProduction goal tokens

/-- The tokens of an operator: all characters but the last are joined to the next one. -/
def operatorTokens : List Char → List Token
  | [] => []
  | [c] => [.punct c .alone]
  | c :: cs => .punct c .joint :: operatorTokens cs

/-- The tokens that name tuple fields one behind another, with a dot between them, and one more at the end if `dotted`.
-/
def positionTokens (dotted : Bool) : List Nat → List Token
  | [] => []
  | [n] => .literal (toString n) :: (if dotted then [.punct '.' .alone] else [])
  | n :: ns => .literal (toString n) :: .punct '.' .alone :: positionTokens dotted ns

/-- Takes what a terminal symbol asks for: the tokens in their normal spacing, and the tokens left. -/
def takeTerminal? (symbol : Symbol) (tokens : List Token) : Option (List Token × List Token) :=
  match symbol, tokens with
  | .word text, .ident name :: rest => if name = text then some ([.ident name], rest) else none
  | .name, .ident name :: rest => if isNameText name then some ([.ident name], rest) else none
  | .operator text, tokens =>
    if isOperator text tokens then some (operatorTokens text.toList, tokens.drop text.length) else none
  | .literal, token :: rest => if isLiteral (token :: rest) then some ([token], rest) else none
  | .lifetime, apostrophe :: name :: rest =>
    if isLifetime (apostrophe :: name :: rest) then some ([apostrophe, name], rest) else none
  | .position, .literal text :: rest => do
    let (positions, dotted) ← Number.fieldPath? text.toList
    return (positionTokens dotted positions, rest)
  | .tree, .group delimiter body :: rest => some ([.group delimiter body], rest)
  | _, _ => none

/-- Whether the tokens of a group have to be used up at once, or may be left over for a complaint at the end. -/
inductive Leftovers where
  | refused
  | kept
  deriving DecidableEq

/-- Reads symbols one after another: the tokens taken, the form of what was read last, and the tokens left. `fuel`
bounds the number of steps. -/
def read (leftovers : Leftovers) : Nat → List Symbol → Form → List Token → Option (List Token × Form × List Token)
  | 0, _, _, _ => none
  | _ + 1, [], found, tokens => some ([], found, tokens)
  | fuel + 1, .form found :: symbols, _, tokens => read leftovers fuel symbols found tokens
  | fuel + 1, .goal goal :: symbols, found, tokens => do
    let production ← goal.production found tokens
    read leftovers fuel (production ++ symbols) found tokens
  | fuel + 1, .group delimiter goal :: symbols, found, tokens =>
    match tokens with
    | .group d body :: rest => do
      guard (d = delimiter)
      let (inner, _, left) ← read leftovers fuel [.goal goal] .plain body
      guard (leftovers = .kept ∨ left.isEmpty)
      let (outer, found, rest) ← read leftovers fuel symbols found rest
      return (.group d inner :: outer, found, rest)
    | _ => none
  | fuel + 1, symbol :: symbols, found, tokens => do
    let (taken, rest) ← takeTerminal? symbol tokens
    let (more, found, rest) ← read leftovers fuel symbols found rest
    return (taken ++ more, found, rest)

/-- The number of steps that is enough for tokens of a certain size: between two tokens only a limited number of symbols
can be replaced. -/
def enough (tokens : List Token) : Nat :=
  256 * (Token.sizeAll tokens + 1)

/-- Reads an expression from the beginning of some tokens: its tokens, and the tokens left. -/
def readFrom (leftovers : Leftovers) (tokens : List Token) : Option (List Token × List Token) :=
  (fun result => (result.1, result.2.2)) <$> read leftovers (enough tokens) [Symbol.expression] .plain tokens

/-- The tokens of an expression that some tokens are from end to end. -/
def ofTokens? (tokens : List Token) : Option (List Token) :=
  match readFrom .refused tokens with
  | some (expression, []) => some expression
  | _ => none

end PrivateLog.Expression
