import PrivateLog.CompiledCall
import PrivateLog.Invocation
import PrivateLog.Logger

/-!
# The code of a logging call

The tokens that a logging call is replaced by. A block asks first whether the severity is enabled; inside, the record is
rendered and then handed on, to all global loggers or to the one named. The values of named arguments are taken once,
in a `match` around the rendering that binds each to its hidden local. Every expression of the user stands in
parentheses of its own.
-/

namespace PrivateLog

namespace Expansion

/-- An operator. -/
def operator (text : String) : List Token :=
  Expression.operatorTokens text.toList

/-- A word. -/
def word (text : String) : List Token :=
  [.ident text]

/-- Tokens in round brackets. -/
def parentheses (body : List Token) : List Token :=
  [.group .parenthesis body]

/-- Tokens in square brackets. -/
def brackets (body : List Token) : List Token :=
  [.group .bracket body]

/-- Tokens in braces. -/
def braces (body : List Token) : List Token :=
  [.group .brace body]

/-- A path of names. -/
def path (names : List String) : List Token :=
  (names.map word).intersperse (operator "::") |>.flatten

/-- Lists of tokens with a comma between them. -/
def separated (parts : List (List Token)) : List Token :=
  (parts.intersperse (operator ",")).flatten

/-- Lists of tokens with a comma behind each. -/
def terminated (parts : List (List Token)) : List Token :=
  parts.flatMap (· ++ operator ",")

/-- A reference to an expression of the user. -/
def reference (expression : List Token) : List Token :=
  operator "&" ++ parentheses expression

/-- A macro that says where the call stands. -/
def location (name : String) : List Token :=
  word name ++ operator "!" ++ parentheses []

/-- The name of a severity. -/
def severity (severity : Severity) : List Token :=
  path ["loggable", "Severity", severity.name]

/-- The text of a format as a literal. -/
def formatLiteral (format : String) : List Token :=
  [.literal (String.ofList (Text.literal format.toList))]

/-- An argument of the rendering. -/
def argument (expression : Expression) : List Token :=
  reference expression.tokens ++ word "as" ++ operator "&" ++ word "dyn" ++ path ["loggable", "privacy", "Loggable"]

/-- The rendering of the record. -/
def rendering (call : CompiledCall) : List Token :=
  let start := separated [severity call.severity, location "file", location "line", location "column"]
  let arguments := operator "&" ++ brackets (separated (call.arguments.map argument))
  path ["loggable", "hidden", "log_format"] ++
    parentheses
      (terminated [path ["loggable", "hidden", "log_pre"] ++ parentheses start, formatLiteral call.format, arguments])

/-- Code inside a `match` that takes the values of the named arguments; without any, the code as it is. -/
def bindingNamed (named : List NamedArgument) (code : List Token) : List Token :=
  if named.isEmpty then code
  else
    let values := terminated (named.map fun argument => reference argument.value)
    let locals := terminated (named.map fun argument => word (Expression.localName argument.name))
    word "match" ++ parentheses values ++ braces (parentheses locals ++ operator "=>" ++ code ++ operator ",")

/-- The statement that hands the record on. -/
def handingOn (logger : Option (List Token)) (delivery : Delivery) : List Token :=
  let suffix := match delivery with
    | .immediate => ""
    | .awaited => "_async"
  let waiting := match delivery with
    | .immediate => []
    | .awaited => operator "." ++ word "await"
  let call := match logger with
    | none => path ["loggable", "hidden", "log_post" ++ suffix] ++ parentheses (word "record")
    | some logger =>
      path ["loggable", "hidden", "log_post_to" ++ suffix] ++ parentheses (separated [reference logger, word "record"])
  call ++ waiting ++ operator ";"

/-- The tokens that replace a logging call. -/
def expand (call : CompiledCall) (logger : Option (List Token)) (named : List NamedArgument) (delivery : Delivery) :
    List Token :=
  let check :=
    path ["loggable", "severity_enabled"] ++ operator "!" ++ parentheses (severity call.severity)
  let binding :=
    word "let" ++ word "record" ++ operator "=" ++ braces (bindingNamed named (rendering call)) ++ operator ";"
  braces (word "if" ++ check ++ braces (binding ++ handingOn logger delivery))

end Expansion

end PrivateLog
