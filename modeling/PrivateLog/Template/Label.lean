import PrivateLog.Text.Blank
import PrivateLog.Text.Letter

/-!
# Labels of placeholders

A placeholder may begin with a label: a word of letters, digits and underscores, set off by a single colon. A doubled
colon belongs to a path and ends no label. Only one label has a meaning.
-/

namespace PrivateLog.Template

open Text

/-- What a label asks for: the value is shown to everyone. -/
inductive Modifier where
  | shown
  deriving DecidableEq, Repr

/-- The label that asks for a modifier. -/
def Modifier.label : Modifier → String
  | .shown => "public"

/-- The modifier that a label asks for. -/
def Modifier.ofLabel? (label : String) : Option Modifier :=
  if label = "public" then some .shown else none

/-- Whether a text is a word: it begins with a letter or an underscore and goes on with letters, digits and
underscores. -/
def isLabel : List Char → Bool
  | [] => false
  | c :: text => (c == '_' || isAlphabetic c) && text.all (fun c => c == '_' || isAlphanumeric c)

/-- The text before the first colon, and the text behind it. -/
def splitColon : List Char → Option (List Char × List Char)
  | [] => none
  | c :: text => if c = ':' then some ([], text) else (fun found => (c :: found.1, found.2)) <$> splitColon text

/-- The body of a placeholder, its label apart. -/
inductive Body where
  | unlabelled
  | labelled (modifier : Modifier) (expression : List Char)
  | unknown (indent label : List Char)
  deriving DecidableEq, Repr

/-- Looks for a label at the beginning of a body. -/
def Body.read (body : List Char) : Body :=
  match splitColon body with
  | none => .unlabelled
  | some (before, behind) =>
    let label := trim before
    if behind.head? = some ':' || !isLabel label then .unlabelled
    else
      match Modifier.ofLabel? (String.ofList label) with
      | some modifier => .labelled modifier behind
      | none => .unknown (before.takeWhile isBlank) label

/-- The label of a modifier asks for it. -/
theorem Modifier.ofLabel?_label (modifier : Modifier) : ofLabel? modifier.label = some modifier := by
  cases modifier
  rfl

end PrivateLog.Template
