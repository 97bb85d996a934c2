import PrivateLog.CompiledCall
import PrivateLog.Invocation
import PrivateLog.Registry

/-!
# Carrying out a logging call

What a logging call does when it runs. Nothing happens unless the severity is enabled. Then the values of the named
arguments are taken, in the order of their declaration, then those of the other placeholders; the record is rendered and
handed to the logger named or to all global ones.
-/

namespace PrivateLog

/-- The values of the expressions that a call may hold, by their texts. -/
abbrev Environment := List (String × Value)

/-- The value of an expression by its text, or else that text. -/
def Environment.value (environment : Environment) (text : String) : Except String Value :=
  match environment.lookup text with
  | some value => .ok value
  | none => .error text

/-- Whether an expression stands for a named argument. -/
def Expression.isBindingOf (expression : Expression) (argument : NamedArgument) : Bool :=
  expression.text == argument.name &&
    match expression.tokens with
    | [.ident name] => name == localName argument.name
    | _ => false

/-- The expressions that a call evaluates, in order, by their texts, and the values of its placeholders. -/
structure Evaluation where
  evaluated : List String
  values : List Value
  deriving Repr

/-- The named arguments with their values, in the order of their declaration. -/
def evaluateNamed (environment : Environment) (named : List NamedArgument) :
    Except String (List (NamedArgument × Value)) :=
  named.mapM fun argument => (fun value => (argument, value)) <$> environment.value (Token.text argument.value)

/-- The value of a placeholder, and its text if it is evaluated for the placeholder. -/
def evaluateArgument (environment : Environment) (named : List (NamedArgument × Value)) (expression : Expression) :
    Except String (Option String × Value) :=
  match named.find? (fun entry => expression.isBindingOf entry.1) with
  | some (_, value) => .ok (none, value)
  | none => (fun value => (some expression.text, value)) <$> environment.value expression.text

/-- Evaluates the expressions of a call. Where one has no value its text is the error. -/
def evaluate (environment : Environment) (named : List NamedArgument) (arguments : List Expression) :
    Except String Evaluation := do
  let values ← evaluateNamed environment named
  let results ← arguments.mapM (evaluateArgument environment values)
  return ⟨named.map (fun argument => Token.text argument.value) ++ results.filterMap (·.1), results.map (·.2)⟩

namespace Registry

/-- The record of a message under the present settings. -/
def record (registry : Registry) (severity : Severity) (site : CallSite) (elapsed : String) (format : String)
    (arguments : List Value) : Record :=
  (Record.start severity site elapsed).format format arguments registry.settings.reveal

/-- Hands a record to one logger, or to all global ones. -/
def submit (registry : Registry) (delivery : Delivery) (record : Record) : Option Access → Registry
  | some access => registry.finishThrough delivery record access
  | none => registry.post delivery record

end Registry

end PrivateLog
