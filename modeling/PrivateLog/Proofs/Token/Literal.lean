import PrivateLog.Text.Quoted
import PrivateLog.Token.StringLiteral
import Mathlib.Data.List.Basic

/-!
# Literals that are written and read

A text that is written as a string literal is read back from it (`value?_literal`). Each character of the text is written so
that one step of reading takes it (`readQuotedWithin_escape`): as itself, behind a backslash, or as its code, which has six
digits at most (`readEscape_escapeCode`).
-/

namespace PrivateLog.StringLiteral

open Text

/-! ## Codes between braces -/

/-- A hexadecimal digit is read as its value, and neither separates digits nor ends a code. -/
theorem digitValue?_digitChar {digit : Nat} (h : digit < 16) :
    Number.digitValue? 16 (Nat.digitChar digit) = some digit ∧ Nat.digitChar digit ≠ '_' ∧ Nat.digitChar digit ≠ '\x7d' := by
  have hall : ∀ d < 16, Number.digitValue? 16 (Nat.digitChar d) = some d ∧ Nat.digitChar d ≠ '_' ∧
      Nat.digitChar d ≠ '\x7d' := by
    decide
  exact hall digit h

/-- A digit is added to the code, as long as there were fewer than six. -/
theorem readCode_digitChar {value digits digit : Nat} (hdigit : digit < 16) (hdigits : digits < 6) (text : List Char) :
    readCode value digits (Nat.digitChar digit :: text) = readCode (16 * value + digit) (digits + 1) text := by
  obtain ⟨hvalue, hseparator, hend⟩ := digitValue?_digitChar hdigit
  rw [readCode, if_neg (fun h => hseparator h.1), if_neg (fun h => hend h.1), if_neg (Nat.ne_of_lt hdigits), hvalue]
  rfl

/-- The digits of a number are read as that number. -/
theorem readCode_toDigits {code : Nat} (h : (Nat.toDigits 16 code).length ≤ 6) (text : List Char) :
    readCode 0 0 (Nat.toDigits 16 code ++ text) = readCode code (Nat.toDigits 16 code).length text := by
  induction code using Nat.strongRecOn generalizing text with
  | ind code ih =>
    rw [Nat.toDigits_eq_if (by decide)] at h ⊢
    by_cases hsmall : code < 16
    · rw [if_pos hsmall, List.singleton_append, readCode_digitChar hsmall (by decide), Nat.mul_zero,
        Nat.zero_add]
      rfl
    · rw [if_neg hsmall, List.length_append, List.length_singleton] at h
      have hfront := ih (code / 16) (by omega) (by omega) (Nat.digitChar (code % 16) :: text)
      have hcode : 16 * (code / 16) + code % 16 = code := Nat.div_add_mod code 16
      rw [if_neg hsmall, List.append_assoc, List.singleton_append, hfront, List.length_append, List.length_singleton,
        readCode_digitChar (Nat.mod_lt _ (by decide)) (by omega), hcode]

/-- The code of a character is read as the character. -/
theorem readEscape_escapeCode (c : Char) (text : List Char) :
    readEscape texts ('u' :: '\x7b' :: (Nat.toDigits 16 c.toNat ++ '\x7d' :: text)) = some (c, text) := by
  have hbound : c.toNat < 16 ^ 6 := by
    have hvalid := c.valid
    simp only [UInt32.isValidChar, Nat.isValidChar] at hvalid
    have hnat : c.toNat = c.val.toNat := rfl
    omega
  have hlength : (Nat.toDigits 16 c.toNat).length ≤ 6 := (Nat.length_toDigits_le_iff (by decide) (by decide)).2 hbound
  have hpositive : 0 < (Nat.toDigits 16 c.toNat).length := Nat.length_toDigits_pos
  have hcode : readCode 0 0 (Nat.toDigits 16 c.toNat ++ '\x7d' :: text) = some (c.toNat, text) := by
    rw [readCode_toDigits hlength, readCode, if_neg (fun h => absurd h.1 (by decide)), if_pos ⟨rfl, hpositive⟩]
  have hvalid : c.toNat.isValidChar ∧ texts.code c.toNat = true := ⟨c.valid, rfl⟩
  rw [readEscape, hcode]
  simp [hvalid, guard]

/-! ## One character -/

/-- An escape behind a backslash is one character. -/
theorem readQuotedWithin_backslash {alphabet : Alphabet} {c : Char} {text rest : List Char}
    (h : readEscape alphabet text = some (c, rest)) (fuel : Nat) :
    readQuotedWithin alphabet (fuel + 1) ('\\' :: text) =
      (fun found => (c :: found.1, found.2)) <$> readQuotedWithin alphabet fuel rest := by
  conv_lhs => unfold readQuotedWithin
  rw [if_neg (by decide), if_pos rfl]
  split
  · cases h
  · cases h
  · rw [h]
    dsimp only [Option.bind_eq_bind, Option.bind_some]
    cases readQuotedWithin alphabet fuel rest <;> rfl

/-- A character that neither ends the text nor has a meaning of its own stands for itself. -/
theorem readQuotedWithin_plain {alphabet : Alphabet} {c : Char} (h : c ≠ '"' ∧ c ≠ '\\' ∧ c ≠ '\r')
    (hplain : alphabet.plain c = true) (fuel : Nat) (text : List Char) :
    readQuotedWithin alphabet (fuel + 1) (c :: text) =
      (fun found => (c :: found.1, found.2)) <$> readQuotedWithin alphabet fuel text := by
  conv_lhs => unfold readQuotedWithin
  rw [if_neg h.1, if_neg h.2.1, if_neg h.2.2, if_pos hplain]
  cases readQuotedWithin alphabet fuel text <;> rfl

/-- An escaped character is taken in one step. -/
theorem readQuotedWithin_escape (c : Char) (fuel : Nat) (text : List Char) :
    readQuotedWithin texts (fuel + 1) (escape '"' c ++ text) =
      (fun found => (c :: found.1, found.2)) <$> readQuotedWithin texts fuel text := by
  unfold escape
  split_ifs with hnul htab hfeed hreturn hmark hvisible
  · subst hnul
    exact readQuotedWithin_backslash rfl fuel
  · subst htab
    exact readQuotedWithin_backslash rfl fuel
  · subst hfeed
    exact readQuotedWithin_backslash rfl fuel
  · subst hreturn
    exact readQuotedWithin_backslash rfl fuel
  · rcases hmark with rfl | rfl <;> exact readQuotedWithin_backslash rfl fuel
  · obtain ⟨hbackslash, hquote⟩ := not_or.1 hmark
    exact readQuotedWithin_plain ⟨hquote, hbackslash, hreturn⟩ rfl fuel text
  · rw [escapeCode, List.append_assoc, List.append_assoc]
    exact readQuotedWithin_backslash (readEscape_escapeCode c text) fuel

/-! ## A whole text -/

/-- A text between quotes takes as many characters as it has, or more. -/
theorem length_le_literalBody (text : List Char) : text.length ≤ (literalBody text).length := by
  induction text with
  | nil => exact Nat.le_refl 0
  | cons c text ih =>
    have hescape : 1 ≤ (escape '"' c).length := by
      unfold escape
      split_ifs <;> simp [escapeCode]
    rw [literalBody, List.length_append, List.length_cons]
    split_ifs
    · simp only [List.length_cons, List.length_nil]
      omega
    · omega

/-- A text is read back up to the closing quote. -/
theorem readQuotedWithin_literalBody (text : List Char) (fuel : Nat) (rest : List Char) :
    readQuotedWithin texts (text.length + fuel + 1) (literalBody text ++ '"' :: rest) = some (text, rest) := by
  induction text with
  | nil => rfl
  | cons c text ih =>
    have hlength : (c :: text).length + fuel + 1 = text.length + fuel + 1 + 1 := by
      rw [List.length_cons]
      omega
    rw [hlength, literalBody]
    split_ifs with hoctal
    · -- Only the NUL is written with two digits.
      obtain rfl : c = '\x00' := by simpa using (Bool.and_eq_true_iff.1 hoctal).1
      have hstep := @readQuotedWithin_backslash texts '\x00' ('x' :: '0' :: '0' :: (literalBody text ++ '"' :: rest)) _ rfl
        (text.length + fuel + 1)
      rw [ih] at hstep
      exact hstep
    · rw [List.append_assoc, readQuotedWithin_escape, ih]
      rfl

/-- A text before a quote that ends it is read whole. -/
theorem readQuoted_literalBody (text : List Char) : readQuoted texts (literalBody text ++ ['"']) = some (text, []) := by
  obtain ⟨more, hmore⟩ := Nat.exists_eq_add_of_le (length_le_literalBody text)
  rw [readQuoted, List.length_append, List.length_singleton, hmore]
  exact readQuotedWithin_literalBody text more []

/-- The literal that a text is written as stands for the text. -/
theorem value?_literal (text : String) : value? (String.ofList (literal text.toList)) = some text := by
  unfold value? literal
  rw [String.toList_ofList]
  simp only [readQuoted_literalBody, Option.map_eq_map, Option.map_some, String.ofList_toList]

end PrivateLog.StringLiteral
