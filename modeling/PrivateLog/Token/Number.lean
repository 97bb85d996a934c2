import PrivateLog.Text.Identifier

/-!
# Number literals

Where a number ends in source text, and which tuple fields a number names behind a dot. A number with a fraction or an
exponent is tried before a whole one: `1.5`, `1.` and `1e3` are of the first kind, while the dot in `1..2` and in
`1.f()` is no part of the number. A suffix written close behind belongs to the literal.
-/

namespace PrivateLog.Number

open Text

/-- Digits and the underscores between them. -/
def isDigitOrGap (c : Char) : Bool :=
  c.isDigit || c == '_'

/-- The value of a digit in a base up to sixteen. -/
def digitValue? (base : Nat) (c : Char) : Option Nat :=
  let value :=
    if c.isDigit then c.toNat - '0'.toNat
    else if 'a' ≤ c ∧ c ≤ 'f' then c.toNat - 'a'.toNat + 10
    else if 'A' ≤ c ∧ c ≤ 'F' then c.toNat - 'A'.toNat + 10
    else base
  if value < base then some value else none

/-- The base that the first two characters announce, and the text behind them. -/
def splitBase : List Char → Nat × List Char
  | '0' :: 'x' :: text => (16, text)
  | '0' :: 'o' :: text => (8, text)
  | '0' :: 'b' :: text => (2, text)
  | text => (10, text)

/-- The text behind the suffix that may follow a literal. -/
def skipSuffix : List Char → List Char
  | [] => []
  | c :: text => if isIdentifierStart c then text.dropWhile isIdentifierContinue else c :: text

/-- A literal ends only where no identifier goes on. -/
def endsHere (text : List Char) : Bool :=
  match text with
  | c :: _ => !isIdentifierContinue c
  | [] => true

/-- The text behind the digits of an exponent, which may have one sign in front of them. -/
def skipExponent (signed : Bool) : List Char → Option (List Char)
  | [] => none
  | c :: text =>
    if c = '+' ∨ c = '-' then (if signed then none else skipExponent true text)
    else if c.isDigit then some (text.dropWhile isDigitOrGap)
    else if c = '_' then skipExponent signed text
    else none

/-- The text behind a fraction or an exponent. -/
def skipFraction : List Char → Option (List Char)
  | '.' :: text =>
    match text with
    | c :: _ =>
      if c = '.' ∨ isIdentifierStart c then none
      else
        match text.dropWhile isDigitOrGap with
        | e :: rest => if e = 'e' ∨ e = 'E' then some ((skipExponent false rest).getD (e :: rest)) else some (e :: rest)
        | [] => some []
    | [] => some []
  | e :: text => if e = 'e' ∨ e = 'E' then skipExponent false text else none
  | [] => none

/-- The text behind a number with a fraction or an exponent. -/
def skipFractional : List Char → Option (List Char)
  | [] => none
  | c :: text => do
    guard c.isDigit
    let rest := skipSuffix (← skipFraction (text.dropWhile isDigitOrGap))
    guard (endsHere rest)
    return rest

/-- The text behind the digits of a whole number; `found` says whether there was one yet. A decimal digit too large for
the base is refused, and so is an underscore in front of all digits in base ten. -/
def skipDigits (base : Nat) (found : Bool) : List Char → Option (List Char)
  | [] => if found then some [] else none
  | c :: text =>
    if c = '_' then (if !found && base == 10 then none else skipDigits base found text)
    else if (digitValue? base c).isSome then skipDigits base true text
    else if c.isDigit || !found then none
    else some (c :: text)

/-- The text behind a whole number. -/
def skipWhole (text : List Char) : Option (List Char) := do
  let (base, digits) := splitBase text
  let rest := skipSuffix (← skipDigits base false digits)
  guard (endsHere rest)
  return rest

/-- The text behind a number. -/
def skip (text : List Char) : Option (List Char) :=
  skipFractional text <|> skipWhole text

/-- The value of a whole number without a suffix. -/
def wholeValue? (text : List Char) : Option Nat :=
  let (base, digits) := splitBase text
  let step (acc : Option (Option Nat)) (c : Char) : Option (Option Nat) := do
    let value ← acc
    if c = '_' then return value
    let digit ← digitValue? base c
    return some (value.getD 0 * base + digit)
  (digits.foldl step (some none)).join

/-- The parts of a text between its dots. -/
def splitDots : List Char → List (List Char)
  | [] => [[]]
  | c :: text =>
    if c = '.' then [] :: splitDots text
    else
      match splitDots text with
      | [] => [[c]]
      | part :: parts => (c :: part) :: parts

/-- The positions of tuple fields that a number behind a dot names, and whether it ends in a dot itself: `1` names one
field, `0.1` a field of a field. -/
def fieldPath? (text : List Char) : Option (List Nat × Bool) := do
  let parts := splitDots text
  let dotted := 1 < parts.length && parts.getLast? == some []
  let positions ← (if dotted then parts.dropLast else parts).mapM wholeValue?
  guard (positions.all (· < Nat.pow 2 32))
  return (positions, dotted)

/-- Whether a text is the position of a single tuple field. -/
def isPosition (text : List Char) : Bool :=
  match fieldPath? text with
  | some ([_], false) => true
  | _ => false

end PrivateLog.Number
