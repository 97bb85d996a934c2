import PrivateLog.Text.Bytes
import PrivateLog.Token.Basic

/-!
# The braces of a template

The value of a template is cut at its braces: doubled braces stand for one, a single opening brace begins a placeholder
that reaches to the closing brace of the same depth, and what is left over is at fault. `splitBody` finds that closing
brace by counting.
-/

namespace PrivateLog.Template

/-- What stands before the brace that closes a placeholder, and the text behind that brace; `depth` counts the braces
open inside. -/
def splitBody (depth : Nat) : List Char → Option (List Char × List Char)
  | [] => none
  | c :: text =>
    if c = '{' then (fun found => (c :: found.1, found.2)) <$> splitBody (depth + 1) text
    else if c = '}' then
      match depth with
      | 0 => some ([], text)
      | depth + 1 => (fun found => (c :: found.1, found.2)) <$> splitBody depth text
    else (fun found => (c :: found.1, found.2)) <$> splitBody depth text

/-- A piece of a template's value. -/
inductive Piece where
  | character (c : Char)
  | placeholder (body : List Char)
  | unterminated
  | unmatched
  deriving DecidableEq, Repr

/-- The pieces of a template's value, each with the number of bytes in front of it and up to its end; `fuel` bounds
their number. Nothing is looked at behind a fault. -/
def cutWithin : Nat → Nat → List Char → List (Located Piece)
  | 0, _, _ => []
  | _ + 1, _, [] => []
  | fuel + 1, offset, c :: text =>
    if c = '{' then
      match text with
      | '{' :: rest => ⟨.character '{', ⟨offset, offset + 2⟩⟩ :: cutWithin fuel (offset + 2) rest
      | text =>
        match splitBody 0 text with
        | some (body, rest) =>
          let stop := offset + 2 + Text.byteLength body
          ⟨.placeholder body, ⟨offset, stop⟩⟩ :: cutWithin fuel stop rest
        | none => [⟨.unterminated, ⟨offset, offset + 1 + Text.byteLength text⟩⟩]
    else if c = '}' then
      match text with
      | '}' :: rest => ⟨.character '}', ⟨offset, offset + 2⟩⟩ :: cutWithin fuel (offset + 2) rest
      | _ => [⟨.unmatched, ⟨offset, offset + 1⟩⟩]
    else ⟨.character c, ⟨offset, offset + c.utf8Size⟩⟩ :: cutWithin fuel (offset + c.utf8Size) text

/-- The pieces of a template's value. Each piece takes a character, so their number is at most that of the characters.
-/
def cut (value : List Char) : List (Located Piece) :=
  cutWithin value.length 0 value

end PrivateLog.Template
