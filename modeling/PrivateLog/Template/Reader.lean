import PrivateLog.Template.Basic
import PrivateLog.Template.Brace

/-!
# Reading templates

The value of a template literal is read piece by piece, and the first piece at fault decides. A placeholder of which the
text is the name of a named argument stands for that argument. Names given twice are refused before anything else, names
that no placeholder uses after everything else.
-/

namespace PrivateLog

/-- A named argument: its name as written, where that stands, and its value. -/
structure NamedArgument where
  name : String
  place : Span
  value : List Token
  deriving Repr

namespace Template

/-- The first named argument of which the name was given before. -/
def firstDuplicate? (seen : List String) : List NamedArgument → Option NamedArgument
  | [] => none
  | argument :: named =>
    if argument.name ∈ seen then some argument else firstDuplicate? (argument.name :: seen) named

/-- What a text in a placeholder refers to: the named argument of that name, or else the expression it is. -/
def resolve (named : List NamedArgument) (text : List Char) (place : Span) : Except Fault Expression :=
  match named.find? (fun argument => argument.name = String.ofList (Text.trim text)) with
  | some argument => .ok (Expression.binding argument.name argument.place)
  | none => Expression.parse (String.ofList text) place

/-- The name that a text in a placeholder uses, if it is that of a named argument. -/
def usedName? (named : List NamedArgument) (text : List Char) : Option String :=
  (named.find? (fun argument => argument.name = String.ofList (Text.trim text))).map (·.name)

/-- A placeholder that has been read: its part of the template, and the named argument that it uses. -/
structure Placeholder where
  expression : Expression
  modifier : Option Modifier
  uses : Option String

/-- Reads the text of a placeholder behind its label; the placeholder stands at `place`. -/
def readText (named : List NamedArgument) (modifier : Option Modifier) (text : List Char) (place : Span) :
    Except Diagnostic Placeholder :=
  match resolve named text place with
  | .ok expression => .ok ⟨expression, modifier, usedName? named text⟩
  | .error fault => .error ⟨fault, place⟩

/-- Reads the body of a placeholder that covers `span` of the value; `place` tells where a part of the value stands in
the source. -/
def readBody (named : List NamedArgument) (place : Span → Span) (body : List Char) (span : Span) :
    Except Diagnostic Placeholder :=
  match Body.read body with
  | .unlabelled => readText named none body (place span)
  | .labelled modifier text => readText named (some modifier) text (place span)
  | .unknown indent label =>
    let start := span.start + 1 + Text.byteLength indent
    .error ⟨.unknownModifier (String.ofList label), place ⟨start, start + Text.byteLength label⟩⟩

/-- Reads one piece: a character, or a placeholder. -/
def readPiece (named : List NamedArgument) (place : Span → Span) (piece : Located Piece) :
    Except Diagnostic (Char ⊕ Placeholder) :=
  match piece.value with
  | .character c => .ok (.inl c)
  | .placeholder body => .inr <$> readBody named place body piece.span
  | .unterminated => .error ⟨.unterminated, place piece.span⟩
  | .unmatched => .error ⟨.unmatched, place piece.span⟩

/-- The literal part that some characters make up, if there are any. -/
def literalOf (characters : List Char) : List Segment :=
  if characters.isEmpty then [] else [.literal (String.ofList characters)]

/-- Gathers runs of characters into literal parts; `run` holds those of the run at hand, last first. -/
def gather (run : List Char) : List (Char ⊕ Placeholder) → List Segment
  | [] => literalOf run.reverse
  | .inl c :: rest => gather (c :: run) rest
  | .inr placeholder :: rest =>
    literalOf run.reverse ++ .placeholder placeholder.expression placeholder.modifier :: gather [] rest

/-- The first named argument that no placeholder uses. -/
def firstUnused? (named : List NamedArgument) (read : List (Char ⊕ Placeholder)) : Option NamedArgument :=
  named.find? fun argument => !read.any fun
    | .inl _ => false
    | .inr placeholder => placeholder.uses == some argument.name

/-- Reads the value of a template literal. -/
def read (value : List Char) (named : List NamedArgument) (place : Span → Span) : Except Diagnostic Template :=
  match firstDuplicate? [] named with
  | some argument => .error ⟨.duplicateArgument argument.name, argument.place⟩
  | none => do
    let pieces ← (cut value).mapM (readPiece named place)
    match firstUnused? named pieces with
    | some argument => .error ⟨.unusedArgument argument.name, argument.place⟩
    | none => return ⟨gather [] pieces⟩

end Template

end PrivateLog
