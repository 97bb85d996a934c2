import PrivateLog.Expression.Reader
import PrivateLog.Template.Fault
import PrivateLog.Text.Blank
import PrivateLog.Text.Quoted
import PrivateLog.Token.Text
import PrivateLog.Token.Tree

/-!
# Interpolated expressions

An expression in a placeholder is kept as tokens and as the text of these. It is either read from the placeholder, with
its tokens in normal spacing, or it stands for a named argument: its text is then the argument's name and its only token
the hidden local that holds the argument's value. Expressions count as the same when their texts agree.
-/

namespace PrivateLog

/-- An expression of source text, and where it stands. -/
structure Expression where
  tokens : List Token
  text : String
  place : Span
  deriving Repr

namespace Expression

/-- Expressions are the same when their texts are. -/
def same (a b : Expression) : Bool :=
  a.text == b.text

/-- Reads the text of a placeholder; blanks around it do not count. -/
def parse (text : String) (place : Span) : Except Fault Expression :=
  match Text.trim text.toList with
  | [] => .error .emptyPlaceholder
  | trimmed =>
    match Token.read? trimmed >>= ofTokens? with
    | some tokens => .ok ⟨tokens, Token.text tokens, place⟩
    | none => .error (.invalidExpression (String.ofList trimmed))

/-- A name without the mark of raw identifiers in front. -/
def withoutRaw : List Char → List Char
  | 'r' :: '#' :: name => withoutRaw name
  | name => name

/-- The local that holds the value of a named argument. -/
def localName (name : String) : String :=
  "__loggable_" ++ String.ofList (withoutRaw name.toList)

/-- The expression that stands for a named argument. -/
def binding (name : String) (place : Span) : Expression :=
  ⟨[.ident (localName name)], name, place⟩

/-- The name that a text consists of, if it is a single identifier that is not reserved. -/
def nameOfText? (text : String) : Option String :=
  match Token.read? text.toList with
  | some [.ident name] => if isNameText name then some name else none
  | _ => none

/-- The expression as a debugging view shows it. -/
def describe (expression : Expression) : String :=
  "SourceExpression(" ++ String.ofList (Text.quote '"' expression.text.toList) ++ ")"

/-- Sameness does not look at the place. -/
theorem same_binding (name : String) (p q : Span) : same (binding name p) (binding name q) = true := by
  simp [same, binding]

/-- A text is read as an expression if it is not blank and its tokens are an expression from end to end. -/
theorem parse_eq_ok_iff {text : String} {place : Span} {expression : Expression} :
    parse text place = .ok expression ↔
      Text.trim text.toList ≠ [] ∧
        ∃ tokens, (Token.read? (Text.trim text.toList) >>= ofTokens?) = some tokens ∧
          ⟨tokens, Token.text tokens, place⟩ = expression := by
  unfold parse
  split
  · rename_i heq
    simp [heq]
  · rename_i hne
    cases hread : Token.read? (Text.trim text.toList) >>= ofTokens? with
    | none => simp
    | some tokens =>
      have hne' : Text.trim text.toList ≠ [] := fun hnil => hne hnil
      simp [hne']

/-- A blank text is no expression. -/
theorem parse_eq_emptyPlaceholder_of_blank {text : String} (place : Span)
    (h : ∀ c ∈ text.toList, Text.isBlank c = true) : parse text place = .error .emptyPlaceholder := by
  simp [parse, Text.trim_eq_nil_iff.2 h]

end Expression

end PrivateLog
