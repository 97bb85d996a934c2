import PrivateLog.Expression.Lookahead
import PrivateLog.Expression.Symbol

/-!
# Operators

The operators between two operands, longest first where one begins another, and what binds how strongly.
-/

namespace PrivateLog.Expression

/-- The operators that join two operands, in the order in which they are looked for. -/
def binaryOperators : List (String × Precedence) :=
  [("+=", .assign), ("-=", .assign), ("*=", .assign), ("/=", .assign), ("%=", .assign), ("^=", .assign),
    ("&=", .assign), ("|=", .assign), ("<<=", .assign), (">>=", .assign), ("&&", .and), ("||", .or), ("<<", .shift),
    (">>", .shift), ("==", .compare), ("<=", .compare), ("!=", .compare), (">=", .compare), ("+", .sum), ("-", .sum),
    ("*", .product), ("/", .product), ("%", .product), ("^", .bitXor), ("&", .bitAnd), ("|", .bitOr), ("<", .compare),
    (">", .compare)]

/-- The binary operator ahead. -/
def binaryOperator? (tokens : List Token) : Option (String × Precedence) :=
  binaryOperators.find? (fun entry => isOperator entry.1 tokens)

/-- Whether the sign of an assignment is ahead. -/
def isAssignment (tokens : List Token) : Bool :=
  isOperator "=" tokens && !isOperator "=>" tokens

/-- How strongly what is ahead binds an operand before it. -/
def precedenceAhead (tokens : List Token) : Precedence :=
  match binaryOperator? tokens with
  | some (_, precedence) => precedence
  | none =>
    if isAssignment tokens then .assign
    else if isOperator ".." tokens then .range
    else if isWord "as" tokens then .cast
    else .lowest

/-- Whether a half-open range ends before what is ahead, so that it has no upper bound. -/
def endsRange (struct : Bool) (tokens : List Token) : Bool :=
  tokens.isEmpty || isDot tokens || (!struct && isGroup .brace tokens) || isWord "as" tokens ||
    isOperatorOf [",", ";", "?", "=>", "=", "+", "/", "%", "^", ">", "<=", "!=", "-=", "*=", "&=", "|=", "<<="] tokens

end PrivateLog.Expression
