import PrivateLog.Text.Visible

/-!
# Quoted text

Text between quotes: the quote and the backslash are escaped, and so is every character that does not show by itself.
Two forms share these rules: the quoted form of a text or a character in a debugging view (`quote`), and a string
literal of source code (`literal`), which writes NUL so that a digit behind it cannot be read as part of the escape.
`escape_of_isVisible` says that a visible character other than the quote and the backslash stands for itself.
-/

namespace PrivateLog.Text

/-- The escape of a character by its code point in lower-case hexadecimal. -/
def escapeCode (c : Char) : List Char :=
  ['\\', 'u', '{'] ++ Nat.toDigits 16 c.toNat ++ ['}']

/-- A character between quotes of the given kind. -/
def escape (mark c : Char) : List Char :=
  if c = '\x00' then ['\\', '0']
  else if c = '\t' then ['\\', 't']
  else if c = '\n' then ['\\', 'n']
  else if c = '\r' then ['\\', 'r']
  else if c = '\\' ∨ c = mark then ['\\', c]
  else if isVisible c then [c]
  else escapeCode c

/-- A text between quotes of the given kind. -/
def quote (mark : Char) (text : List Char) : List Char :=
  mark :: (text.flatMap (escape mark) ++ [mark])

/-- Whether the text begins with an octal digit. -/
def startsOctal : List Char → Bool
  | c :: _ => '0' ≤ c && c ≤ '7'
  | [] => false

/-- The text between the quotes of a string literal. -/
def literalBody : List Char → List Char
  | [] => []
  | c :: text =>
    (if c = '\x00' && startsOctal text then ['\\', 'x', '0', '0'] else escape '"' c) ++ literalBody text

/-- The text as a string literal of source code. -/
def literal (text : List Char) : List Char :=
  '"' :: (literalBody text ++ ['"'])

/-- A visible character that is neither the quote nor the backslash stands for itself. -/
theorem escape_of_isVisible {mark c : Char} (hv : isVisible c = true) (hs : c ≠ '\\') (hm : c ≠ mark) :
    escape mark c = [c] := by
  have h0 : c ≠ '\x00' := by rintro rfl; revert hv; decide
  have ht : c ≠ '\t' := by rintro rfl; revert hv; decide
  have hn : c ≠ '\n' := by rintro rfl; revert hv; decide
  have hr : c ≠ '\r' := by rintro rfl; revert hv; decide
  simp [escape, h0, ht, hn, hr, hs, hm, hv]

end PrivateLog.Text
