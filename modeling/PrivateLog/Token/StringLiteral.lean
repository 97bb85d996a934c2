import PrivateLog.Token.Number

/-!
# String literals

Reading the literals written between quotes: texts, byte texts, terminated texts, characters and bytes, with escapes or
raw between a quote and a number of `#`. Reading yields what the literal stands for and the text behind its closing
quote. What may stand in a literal, and by which escapes, is an `Alphabet`.
-/

namespace PrivateLog.StringLiteral

open Number (digitValue?)

/-- What a literal may hold: unescaped characters, codes written with two digits, and codes between braces. -/
structure Alphabet where
  plain : Char → Bool
  byte : Nat → Bool
  code : Nat → Bool

/-- Any character, and two-digit codes in the ASCII range. -/
def texts : Alphabet where
  plain := fun _ => true
  byte := (· < 128)
  code := fun _ => true

/-- ASCII characters and all two-digit codes. -/
def byteTexts : Alphabet where
  plain := (·.toNat < 128)
  byte := fun _ => true
  code := fun _ => false

/-- Anything but the code that ends the text. -/
def terminatedTexts : Alphabet where
  plain := (· ≠ '\x00')
  byte := (· ≠ 0)
  code := (· ≠ 0)

/-- The code written with up to six digits before a closing brace, underscores allowed behind the first digit. -/
def readCode (value digits : Nat) : List Char → Option (Nat × List Char)
  | [] => none
  | c :: text =>
    if c = '_' ∧ 0 < digits then readCode value digits text
    else if c = '\x7d' ∧ 0 < digits then some (value, text)
    else if digits = 6 then none
    else do readCode (16 * value + (← digitValue? 16 c)) (digits + 1) text

/-- The character an escape stands for, read behind the backslash. -/
def readEscape (alphabet : Alphabet) : List Char → Option (Char × List Char)
  | 'n' :: text => some ('\n', text)
  | 'r' :: text => some ('\r', text)
  | 't' :: text => some ('\t', text)
  | '\\' :: text => some ('\\', text)
  | '\'' :: text => some ('\'', text)
  | '"' :: text => some ('"', text)
  | '0' :: text => if alphabet.byte 0 then some ('\x00', text) else none
  | 'x' :: high :: low :: text => do
    let code := 16 * (← digitValue? 16 high) + (← digitValue? 16 low)
    guard (alphabet.byte code)
    return (Char.ofNat code, text)
  | 'u' :: '\x7b' :: text => do
    let (code, rest) ← readCode 0 0 text
    guard (code.isValidChar ∧ alphabet.code code)
    return (Char.ofNat code, rest)
  | _ => none

/-- The text behind the blanks that begin a continued line; a carriage return counts only before a line feed. -/
def skipIndent : List Char → Option (List Char)
  | ' ' :: text => skipIndent text
  | '\t' :: text => skipIndent text
  | '\n' :: text => skipIndent text
  | '\r' :: '\n' :: text => skipIndent text
  | '\r' :: _ => none
  | [] => none
  | c :: text => some (c :: text)

/-- What stands before the closing quote, and the text behind it; `fuel` bounds the number of steps. -/
def readQuotedWithin (alphabet : Alphabet) : Nat → List Char → Option (List Char × List Char)
  | 0, _ => none
  | _ + 1, [] => none
  | fuel + 1, c :: text =>
    if c = '"' then some ([], text)
    else if c = '\\' then
      match text with
      | '\n' :: rest => do readQuotedWithin alphabet fuel (← skipIndent rest)
      | '\r' :: '\n' :: rest => do readQuotedWithin alphabet fuel (← skipIndent rest)
      | rest => do
        let (value, rest) ← readEscape alphabet rest
        let (values, rest) ← readQuotedWithin alphabet fuel rest
        return (value :: values, rest)
    else if c = '\r' then
      match text with
      | '\n' :: rest => do
        let (values, rest) ← readQuotedWithin alphabet fuel rest
        return ('\n' :: values, rest)
      | _ => none
    else if alphabet.plain c then do
      let (values, rest) ← readQuotedWithin alphabet fuel text
      return (c :: values, rest)
    else none

/-- What stands before the closing quote, and the text behind it. Each step takes a character, so as many steps as there
are characters are enough. -/
def readQuoted (alphabet : Alphabet) (text : List Char) : Option (List Char × List Char) :=
  readQuotedWithin alphabet text.length text

/-- What stands before a quote with `hashes` times `#` behind it, and the text behind that. -/
def readRawBody (alphabet : Alphabet) (hashes : Nat) : List Char → Option (List Char × List Char)
  | [] => none
  | '\r' :: '\n' :: text => do
    let (values, rest) ← readRawBody alphabet hashes text
    return ('\r' :: '\n' :: values, rest)
  | '\r' :: _ => none
  | c :: text =>
    if c = '"' && (List.replicate hashes '#').isPrefixOf text then some ([], text.drop hashes)
    else if alphabet.plain c then do
      let (values, rest) ← readRawBody alphabet hashes text
      return (c :: values, rest)
    else none

/-- A raw text, read behind the letter that announces it: up to 255 times `#`, a quote, and all to the same again. -/
def readRaw (alphabet : Alphabet) (text : List Char) : Option (List Char × List Char) :=
  let hashes := (text.takeWhile (· = '#')).length
  match text.drop hashes with
  | '"' :: rest => if hashes ≤ 255 then readRawBody alphabet hashes rest else none
  | _ => none

/-- A single character or escape before a closing quote, and the text behind that. -/
def readSingle (alphabet : Alphabet) (text : List Char) : Option (Char × List Char) := do
  let (value, rest) ←
    match text with
    | '\\' :: rest => readEscape alphabet rest
    | c :: rest => if alphabet.plain c then some (c, rest) else none
    | [] => none
  match rest with
  | '\'' :: rest => some (value, rest)
  | _ => none

/-- The text behind the closing quote of a literal between quotes. -/
def skip : List Char → Option (List Char)
  | '"' :: text => (·.2) <$> readQuoted texts text
  | 'r' :: text => (·.2) <$> readRaw texts text
  | 'b' :: '"' :: text => (·.2) <$> readQuoted byteTexts text
  | 'b' :: 'r' :: text => (·.2) <$> readRaw byteTexts text
  | 'c' :: '"' :: text => (·.2) <$> readQuoted terminatedTexts text
  | 'c' :: 'r' :: text => (·.2) <$> readRaw terminatedTexts text
  | 'b' :: '\'' :: text => (·.2) <$> readSingle byteTexts text
  | '\'' :: text => (·.2) <$> readSingle texts text
  | _ => none

/-- The text that a literal stands for, if it is a text literal. -/
def value? (literal : String) : Option String :=
  match literal.toList with
  | '"' :: text => (fun r => String.ofList r.1) <$> readQuoted texts text
  | 'r' :: text => (fun r => String.ofList r.1) <$> readRaw texts text
  | _ => none

/-- Every indentation is skipped up to a character that is none. -/
theorem skipIndent_of_graphic {c : Char} {text : List Char} (h : c ≠ ' ' ∧ c ≠ '\t' ∧ c ≠ '\n' ∧ c ≠ '\r') :
    skipIndent (c :: text) = some (c :: text) := by
  obtain ⟨h1, h2, h3, h4⟩ := h
  unfold skipIndent
  split <;> simp_all

end PrivateLog.StringLiteral
