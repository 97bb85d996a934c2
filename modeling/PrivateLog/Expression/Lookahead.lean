import PrivateLog.Token.Basic
import PrivateLog.Token.StringLiteral

/-!
# Looking ahead

Questions about the tokens ahead. An operator of several characters stands ahead only if all of them but the last are
joined to their successor; how the last one is spaced does not matter, so a short operator also stands ahead where a
longer one begins.
-/

namespace PrivateLog.Expression

/-- Words that cannot be names. -/
def reserved : List String :=
  ["_", "abstract", "as", "async", "await", "become", "box", "break", "const", "continue", "crate", "do", "dyn", "else",
    "enum", "extern", "false", "final", "fn", "for", "if", "impl", "in", "let", "loop", "macro", "match", "mod", "move",
    "mut", "override", "priv", "pub", "ref", "return", "Self", "self", "static", "struct", "super", "trait", "true",
    "try", "type", "typeof", "unsafe", "unsized", "use", "virtual", "where", "while", "yield"]

/-- Whether a word may be a name. -/
def isNameText (text : String) : Bool :=
  text ∉ reserved

/-- Whether an identifier is ahead, reserved or not. -/
def isIdent : List Token → Bool
  | .ident _ :: _ => true
  | _ => false

/-- Whether a certain identifier is ahead. -/
def isWord (text : String) : List Token → Bool
  | .ident name :: _ => name == text
  | _ => false

/-- Whether one of some identifiers is ahead. -/
def isWordOf (texts : List String) : List Token → Bool
  | .ident name :: _ => texts.contains name
  | _ => false

/-- Whether an identifier is ahead that is not reserved. -/
def isName : List Token → Bool
  | .ident name :: _ => isNameText name
  | _ => false

/-- Whether the characters of an operator are ahead. -/
def isSpelled : List Char → List Token → Bool
  | [], _ => true
  | c :: cs, .punct d spacing :: tokens => c == d && (cs.isEmpty || spacing == .joint) && isSpelled cs tokens
  | _ :: _, _ => false

/-- Whether an operator is ahead. -/
def isOperator (text : String) (tokens : List Token) : Bool :=
  isSpelled text.toList tokens

/-- Whether one of some operators is ahead. -/
def isOperatorOf (texts : List String) (tokens : List Token) : Bool :=
  texts.any (isOperator · tokens)

/-- Whether a group in certain brackets is ahead. -/
def isGroup (delimiter : Delimiter) : List Token → Bool
  | .group d _ :: _ => d == delimiter
  | _ => false

/-- Whether any group is ahead. -/
def isTree : List Token → Bool
  | .group _ _ :: _ => true
  | _ => false

/-- Whether a lifetime is ahead. -/
def isLifetime : List Token → Bool
  | .punct '\'' .joint :: .ident _ :: _ => true
  | _ => false

/-- Whether a literal is ahead; the two truth values are literals. -/
def isLiteral : List Token → Bool
  | .literal _ :: _ => true
  | .ident name :: _ => name == "true" || name == "false"
  | _ => false

/-- Whether the literal of a text is ahead. -/
def isText : List Token → Bool
  | .literal text :: _ => (StringLiteral.value? text).isSome
  | _ => false

/-- The characters that begin a literal other than a number. -/
def marks : List Char :=
  ['"', '\'', 'b', 'c', 'r']

/-- Whether a number is ahead. -/
def isNumber : List Token → Bool
  | .literal text :: _ => text.toList.head?.any (!marks.contains ·)
  | _ => false

/-- Whether a single dot is ahead. -/
def isDot (tokens : List Token) : Bool :=
  isOperator "." tokens && !isOperator ".." tokens

/-- Whether the `!` of a macro call is ahead. -/
def isBang (tokens : List Token) : Bool :=
  isOperator "!" tokens && !isOperator "!=" tokens

/-- Whether a single vertical bar is ahead, as between the alternatives of a pattern. -/
def isBar (tokens : List Token) : Bool :=
  isOperator "|" tokens && !isOperator "||" tokens && !isOperator "|=" tokens

/-- Whether a single colon is ahead, as behind a name. -/
def isColon (tokens : List Token) : Bool :=
  isOperator ":" tokens && !isOperator "::" tokens

/-- Whether the binder of a generic closure or function type is ahead. -/
def isBinder (tokens : List Token) : Bool :=
  isWord "for" tokens && isOperator "<" (tokens.drop 1) &&
    (isLifetime (tokens.drop 2) || isOperator ">" (tokens.drop 2))

/-- The words that are names in the path of a macro or an attribute, though they are reserved. -/
def pathWords : List String :=
  ["super", "self", "Self", "crate"]

/-- The tokens behind the `!` of a macro call, if the path of one is ahead that does not begin at the root. -/
def behindBang? : List Token → Option (List Token)
  | .ident name :: tokens =>
    if isNameText name || pathWords.contains name then
      match tokens with
      | .punct ':' .joint :: .punct ':' _ :: tokens => behindBang? tokens
      | .punct '!' _ :: tokens => some tokens
      | _ => none
    else none
  | _ => none

/-- The tokens behind the `!` of a macro call, if the path of one is ahead. -/
def behindMacro? (tokens : List Token) : Option (List Token) :=
  if isOperator "::" tokens then behindBang? (tokens.drop 2) else behindBang? tokens

/-- Whether some tokens begin with the braces of a macro call that ends a statement: no method is called on it. -/
def endsMacro (tokens : List Token) : Bool :=
  isGroup .brace tokens && !isDot (tokens.drop 1) && !isOperator "?" (tokens.drop 1)

/-- Whether a macro call in braces is ahead that ends a statement. -/
def isMacroStatement (tokens : List Token) : Bool :=
  (behindMacro? tokens).any endsMacro

/-- Whether a macro call is ahead that defines a name. -/
def isMacroItem (tokens : List Token) : Bool :=
  (behindMacro? tokens).any fun rest => isName rest || isWord "try" rest

/-- Whether an expression may begin with what is ahead. -/
def startsExpression (tokens : List Token) : Bool :=
  (isIdent tokens && !isWord "as" tokens) || isTree tokens || isLiteral tokens || isLifetime tokens ||
    isOperatorOf ["..", "::", "#"] tokens ||
    (isOperator "!" tokens && !isOperator "!=" tokens) ||
    (isOperator "-" tokens && !isOperatorOf ["-=", "->"] tokens) ||
    (isOperator "*" tokens && !isOperator "*=" tokens) ||
    (isOperator "|" tokens && !isOperator "|=" tokens) ||
    (isOperator "&" tokens && !isOperator "&=" tokens) ||
    (isOperator "<" tokens && !isOperatorOf ["<=", "<<="] tokens)

end PrivateLog.Expression
