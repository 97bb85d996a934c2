import PrivateLog.Text.Blank
import PrivateLog.Text.Bytes
import PrivateLog.Text.Quoted
import PrivateLog.Token.Basic
import PrivateLog.Token.StringLiteral

/-!
# Cutting source text into lexemes

A lexeme is a token without parts, or a bracket that opens or closes a group. At each place of a text `piece` finds what
stands there: blanks and comments yield nothing, a documentation comment yields the attribute that it abbreviates,
anything else one lexeme. A text that holds something else is no source text at all. `scan` repeats this to the end and
notes where each lexeme stands, in bytes.
-/

namespace PrivateLog

open Text

/-- A token without parts, or a bracket. -/
inductive Lexeme where
  | leaf (token : Token)
  | opening (delimiter : Delimiter)
  | closing (delimiter : Delimiter)
  deriving Repr

namespace Lexeme

/-- The characters that are punctuation, apart from those that begin a comment. -/
def isPunctuation (c : Char) : Bool :=
  c ∈ "~!@#$%^&*-=+|;:,<.>/?'".toList

/-- Whether a punctuation character stands here; a slash that begins a comment is none. -/
def startsPunctuation : List Char → Bool
  | '/' :: '/' :: _ => false
  | '/' :: '*' :: _ => false
  | c :: _ => isPunctuation c
  | [] => false

/-- The rest of a line, and the text behind it. -/
def splitLine : List Char → List Char × List Char
  | '\r' :: '\n' :: text => ([], '\n' :: text)
  | '\n' :: text => ([], '\n' :: text)
  | c :: text => let (line, rest) := splitLine text; (c :: line, rest)
  | [] => ([], [])

/-- What a block comment holds, and the text behind its end; block comments nest, and `depth` counts those open inside.
-/
def splitBlock (depth : Nat) : List Char → Option (List Char × List Char)
  | '*' :: '/' :: text =>
    match depth with
    | 0 => some ([], text)
    | depth + 1 => do
      let (inner, rest) ← splitBlock depth text
      return ('*' :: '/' :: inner, rest)
  | '/' :: '*' :: text => do
    let (inner, rest) ← splitBlock (depth + 1) text
    return ('/' :: '*' :: inner, rest)
  | c :: text => do
    let (inner, rest) ← splitBlock depth text
    return (c :: inner, rest)
  | [] => none

/-- Whether every carriage return stands before a line feed. -/
def hasNoLoneReturn : List Char → Bool
  | '\r' :: '\n' :: text => hasNoLoneReturn text
  | '\r' :: _ => false
  | _ :: text => hasNoLoneReturn text
  | [] => true

/-- The attribute that a documentation comment abbreviates; with `inner` it belongs to what surrounds it. -/
def documentation (inner : Bool) (comment : List Char) : Option (List Lexeme) := do
  guard (hasNoLoneReturn comment)
  return [.leaf (.punct '#' .alone)] ++ (if inner then [.leaf (.punct '!' .alone)] else []) ++
    [.opening .bracket, .leaf (.ident "doc"), .leaf (.punct '=' .alone),
      .leaf (.literal (String.ofList (literal comment))), .closing .bracket]

/-- A comment, read behind its two first characters: what it stands for, and the text behind it. -/
def comment (block : Bool) (text : List Char) : Option (List Lexeme × List Char) := do
  let mark := if block then '*' else '/'
  let doubled := text.head? == some mark && text.tail.head? != some mark && !(block && text.tail.head? == some '/')
  let (body, rest) ← if block then splitBlock 0 text else some (splitLine text)
  if text.head? == some '!' then return (← documentation true body.tail, rest)
  else if doubled then return (← documentation false body.tail, rest)
  else return ([], rest)

/-- The longest identifier that stands here, and the text behind it. -/
def splitWord : List Char → Option (List Char × List Char)
  | [] => none
  | c :: text =>
    if isIdentifierStart c then
      some (c :: text.takeWhile isIdentifierContinue, text.dropWhile isIdentifierContinue)
    else none

/-- Words that have no raw form. -/
def neverRaw : List String :=
  ["_", "super", "self", "Self", "crate"]

/-- An identifier, raw if it begins with `r#`, and the text behind it. -/
def splitIdentifier : List Char → Option (String × List Char)
  | 'r' :: '#' :: text => do
    let (word, rest) ← splitWord text
    guard (String.ofList word ∉ neverRaw)
    return (String.ofList ('r' :: '#' :: word), rest)
  | text => do
    let (word, rest) ← splitWord text
    return (String.ofList word, rest)

/-- The beginnings that belong to literals and so to no identifier. -/
def literalStarts : List String :=
  ["r\"", "r#\"", "r##", "b\"", "b'", "br\"", "br#", "c\"", "cr\"", "cr#"]

/-- Whether the text begins as only a literal may. -/
def startsLiteral (text : List Char) : Bool :=
  literalStarts.any (·.toList.isPrefixOf text)

/-- Whether a lifetime's name stands here, behind its apostrophe. A name that a quote or a `#` ends is none. -/
def startsLifetime (text : List Char) : Bool :=
  match splitIdentifier text with
  | some (_, '\'' :: _) => false
  | some (_, '#' :: _) => "r#".toList.isPrefixOf text
  | some _ => true
  | none => false

/-- The text behind the literal that stands here. -/
def skipLiteral (text : List Char) : Option (List Char) :=
  match StringLiteral.skip text with
  | some rest => some (Number.skipSuffix rest)
  | none => Number.skip text

/-- The literal, punctuation character or identifier that stands here, and the text behind it. -/
def leaf? (text : List Char) : Option (Token × List Char) :=
  match skipLiteral text with
  | some rest => some (.literal (String.ofList (text.take (text.length - rest.length))), rest)
  | none =>
    match text with
    | [] => none
    | c :: rest =>
      if startsPunctuation text then
        if c = '\'' then (if startsLifetime rest then some (.punct c .joint, rest) else none)
        else some (.punct c (if startsPunctuation rest then .joint else .alone), rest)
      else if startsLiteral text then none
      else do
        let (name, rest) ← splitIdentifier text
        return (.ident name, rest)

/-- The characters between tokens: the blanks, and the two marks that set the direction of writing. -/
def isGap (c : Char) : Bool :=
  isBlank c || c.toNat == 0x200E || c.toNat == 0x200F

/-- What stands at the beginning of a text, and the text behind it. -/
def piece : List Char → Option (List Lexeme × List Char)
  | '/' :: '/' :: text => comment false text
  | '/' :: '*' :: text => comment true text
  | '(' :: text => some ([.opening .parenthesis], text)
  | '[' :: text => some ([.opening .bracket], text)
  | '{' :: text => some ([.opening .brace], text)
  | ')' :: text => some ([.closing .parenthesis], text)
  | ']' :: text => some ([.closing .bracket], text)
  | '}' :: text => some ([.closing .brace], text)
  | [] => none
  | c :: text =>
    if isGap c then some ([], text)
    else (fun found => ([.leaf found.1], found.2)) <$> leaf? (c :: text)

/-- The lexemes of a text of which the first character stands at `offset`; `fuel` bounds the number of pieces. -/
def scanWithin : Nat → Nat → List Char → Option (List (Located Lexeme))
  | _, _, [] => some []
  | 0, _, _ => none
  | fuel + 1, offset, text => do
    let (lexemes, rest) ← piece text
    let stop := offset + byteLength (text.take (text.length - rest.length))
    let found ← scanWithin fuel stop rest
    return lexemes.map (fun lexeme => ⟨lexeme, ⟨offset, stop⟩⟩) ++ found

/-- The lexemes of a source text. A byte order mark in front is no part of it. Each piece takes a character, so as many
pieces as there are characters are enough. -/
def scan : List Char → Option (List (Located Lexeme))
  | '\uFEFF' :: text => scanWithin text.length 3 text
  | text => scanWithin text.length 0 text

end Lexeme

end PrivateLog
