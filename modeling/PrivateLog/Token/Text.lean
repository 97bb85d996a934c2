import PrivateLog.Token.Basic

/-!
# The text of tokens

Tokens are written with one blank between them and none behind a punctuation character joined to its successor. Round
and square brackets stand close to what they hold; braces keep a blank on the inside. `writeAll_cons_cons` is the rule
for what stands between two tokens.
-/

namespace PrivateLog.Token

/-- Whether the token is joined to the one behind it. -/
def isJoint : Token → Bool
  | .punct _ .joint => true
  | _ => false

/-- What stands before and behind the tokens of a group. -/
def brackets (delimiter : Delimiter) (empty : Bool) : List Char × List Char :=
  match delimiter with
  | .parenthesis => (['('], [')'])
  | .bracket => (['['], [']'])
  | .brace => (['{', ' '], if empty then ['}'] else [' ', '}'])

mutual

/-- The text of a token. -/
def write : Token → List Char
  | .ident name => name.toList
  | .punct symbol _ => [symbol]
  | .literal text => text.toList
  | .group delimiter body =>
    (brackets delimiter body.isEmpty).1 ++ writeAll body ++ (brackets delimiter body.isEmpty).2

/-- The text of tokens in a row. -/
def writeAll : List Token → List Char
  | [] => []
  | token :: tokens =>
    write token ++ (if token.isJoint || tokens.isEmpty then [] else [' ']) ++ writeAll tokens

end

/-- The text of tokens in a row, as a string. -/
def text (tokens : List Token) : String :=
  String.ofList (writeAll tokens)

/-- A single token is written without anything around it. -/
theorem writeAll_singleton (token : Token) : writeAll [token] = write token := by
  simp [writeAll]

/-- Two tokens are apart by a blank unless the first is joined to the second. -/
theorem writeAll_cons_cons (a b : Token) (tokens : List Token) :
    writeAll (a :: b :: tokens) = write a ++ (if a.isJoint then [] else [' ']) ++ writeAll (b :: tokens) := by
  rw [writeAll]
  simp

end PrivateLog.Token
