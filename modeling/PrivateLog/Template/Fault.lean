import PrivateLog.Token.Basic

/-!
# What can be wrong with a template

The faults of a logging call in source text, each with its message, and the fault together with the place it is found
at.
-/

namespace PrivateLog

/-- What is wrong with a template or with the arguments of one. -/
inductive Fault where
  | emptySource
  | expectedTemplate
  | duplicateArgument (name : String)
  | unterminated
  | unmatched
  | unusedArgument (name : String)
  | unknownModifier (label : String)
  | emptyPlaceholder
  | invalidExpression (text : String)
  deriving DecidableEq, Repr

/-- The message for a fault. -/
def Fault.message : Fault → String
  | .emptySource => "unexpected end of input, expected a string literal template"
  | .expectedTemplate => "expected a string literal template"
  | .duplicateArgument name => "duplicate argument named `" ++ name ++ "`"
  | .unterminated => "unterminated placeholder in template; expected `\x7d`"
  | .unmatched => "unmatched `\x7d` in template; use `\x7d\x7d` for a literal brace"
  | .unusedArgument name => "named argument `" ++ name ++ "` is never used"
  | .unknownModifier label => "unknown modifier `" ++ label ++ "`; the only supported modifier is `public`"
  | .emptyPlaceholder => "empty placeholder; expected an expression between `\x7b` and `\x7d`"
  | .invalidExpression text => "invalid expression `" ++ text ++ "` in placeholder"

/-- A fault and the place where it is found. -/
structure Diagnostic where
  fault : Fault
  span : Span
  deriving DecidableEq, Repr

end PrivateLog
