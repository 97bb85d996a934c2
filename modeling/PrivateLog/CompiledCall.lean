import PrivateLog.Severity
import PrivateLog.Template.Basic

/-!
# Compiled calls

A template is compiled to a format string and the list of its expressions. In the format a marker stands for each
placeholder, and literal text is copied with its percent signs doubled, so that none of them begins a marker.
`compile_arguments` and `compile_severity` say what is passed on as it is.
-/

namespace PrivateLog

/-- A template as it is handed to the renderer: the format string holds one marker for each argument, in their order. -/
structure CompiledCall where
  severity : Severity
  format : String
  arguments : List Expression
  deriving Repr

/-- The marker of a placeholder. -/
def Template.marker : Option Template.Modifier → String
  | none => "%s"
  | some .shown => "%\x7bpublic\x7ds"

/-- Literal text inside a format string: its percent signs are doubled. -/
def Template.escapePercent (text : List Char) : List Char :=
  text.flatMap fun c => if c = '%' then ['%', '%'] else [c]

/-- A part of a template in the format string. -/
def Segment.format : Segment → List Char
  | .literal text => Template.escapePercent text.toList
  | .placeholder _ modifier => (Template.marker modifier).toList

/-- Compiles a template. -/
def Template.compile (template : Template) (severity : Severity) : CompiledCall where
  severity := severity
  format := String.ofList (template.segments.flatMap Segment.format)
  arguments := template.placeholders.map (·.1)

namespace CompiledCall

/-- Compiled calls are the same when severity and format are and the arguments are, one by one. -/
def same (a b : CompiledCall) : Bool :=
  a.severity == b.severity && a.format == b.format && a.arguments.map (·.text) == b.arguments.map (·.text)

/-- The compiled call as a debugging view shows it. -/
def describe (call : CompiledCall) : String :=
  "CompiledCall \x7b severity: " ++ call.severity.name ++ ", format: " ++
    String.ofList (Text.quote '"' call.format.toList) ++ ", arguments: [" ++
    String.intercalate ", " (call.arguments.map Expression.describe) ++ "] \x7d"

end CompiledCall

/-- The arguments are the expressions of the placeholders, in order. -/
theorem Template.compile_arguments (template : Template) (severity : Severity) :
    (template.compile severity).arguments = template.placeholders.map (·.1) := rfl

/-- The severity is passed on. -/
theorem Template.compile_severity (template : Template) (severity : Severity) :
    (template.compile severity).severity = severity := rfl

end PrivateLog
