import PrivateLog.Proofs.Token.Extent
import PrivateLog.Proofs.Token.Scanning
import PrivateLog.Token.Text
import Mathlib.Data.List.Infix
import Mathlib.Data.Option.Basic

/-!
# Scanning takes from the front

Whatever a scanner finds at the beginning of a text, what is left is an end of that text. So a token without parts stands
written in front of what is left (`eq_write_append_of_leaf?`). What a piece can be is said once (`Yields`,
`yields_of_piece`): nothing, documentation, a token, or a bracket.
-/

namespace PrivateLog

/-! ## Numbers -/

namespace Number

/-- A suffix is left out at the front. -/
theorem skipSuffix_suffix (text : List Char) : skipSuffix text <:+ text := by
  cases text with
  | nil => exact List.suffix_rfl
  | cons c text =>
    rw [skipSuffix]
    split
    · exact (List.dropWhile_suffix _).trans (List.suffix_cons c text)
    · exact List.suffix_rfl

/-- So is an exponent, which has a character at least. -/
theorem suffix_of_skipExponent {signed : Bool} {text rest : List Char} (h : skipExponent signed text = some rest) :
    rest <:+ text.tail := by
  induction text generalizing signed with
  | nil => cases h
  | cons c text ih =>
    rw [skipExponent] at h
    split at h
    · split at h
      · cases h
      · exact (ih h).trans (List.tail_suffix text)
    · split at h
      · cases h
        exact List.dropWhile_suffix _
      · split at h
        · exact (ih h).trans (List.tail_suffix text)
        · cases h

/-- Where no exponent is written nothing is left out. -/
theorem getD_skipExponent_suffix (e : Char) (text : List Char) :
    (skipExponent false text).getD (e :: text) <:+ e :: text := by
  cases h : skipExponent false text with
  | none => exact List.suffix_rfl
  | some rest => exact ((suffix_of_skipExponent h).trans (List.tail_suffix text)).trans (List.suffix_cons e text)

/-- A fraction is left out at the front, and has a character at least. -/
theorem suffix_of_skipFraction {text rest : List Char} (h : skipFraction text = some rest) : rest <:+ text.tail := by
  unfold skipFraction at h
  split at h
  · split at h
    · split at h
      · cases h
      · split at h
        · rename_i e behind hdigits
          refine List.IsSuffix.trans ?_ (hdigits ▸ List.dropWhile_suffix _)
          split at h <;> cases h
          · exact getD_skipExponent_suffix e behind
          · exact List.suffix_rfl
        · cases h
          exact List.nil_suffix
    · cases h
      exact List.nil_suffix
  · split at h
    · exact (suffix_of_skipExponent h).trans (List.tail_suffix _)
    · cases h
  · cases h

/-- So is a number with a fraction or an exponent. -/
theorem suffix_of_skipFractional {text rest : List Char} (h : skipFractional text = some rest) : rest <:+ text.tail := by
  cases text with
  | nil => cases h
  | cons c text =>
    obtain ⟨-, -, h⟩ := Option.bind_eq_some_iff.1 h
    obtain ⟨behind, hfraction, h⟩ := Option.bind_eq_some_iff.1 h
    obtain ⟨-, -, h⟩ := Option.bind_eq_some_iff.1 h
    cases h
    calc skipSuffix behind <:+ behind := skipSuffix_suffix behind
      _ <:+ text.dropWhile isDigitOrGap := (suffix_of_skipFraction hfraction).trans (List.tail_suffix _)
      _ <:+ text := List.dropWhile_suffix _

/-- Digits are left out at the front. -/
theorem suffix_of_skipDigits {base : Nat} {found : Bool} {text rest : List Char}
    (h : skipDigits base found text = some rest) : rest <:+ text := by
  induction text generalizing found with
  | nil =>
    rw [skipDigits] at h
    split at h <;> cases h
    exact List.suffix_rfl
  | cons c text ih =>
    rw [skipDigits] at h
    split at h
    · split at h
      · cases h
      · exact (ih h).trans (List.suffix_cons c text)
    · split at h
      · exact (ih h).trans (List.suffix_cons c text)
      · split at h <;> cases h
        exact List.suffix_rfl

/-- There is a digit at least, or an underscore behind the mark of a base. -/
theorem suffix_tail_of_skipDigits {base : Nat} {text rest : List Char} (h : skipDigits base false text = some rest) :
    rest <:+ text.tail := by
  cases text with
  | nil => cases h
  | cons c text =>
    rw [skipDigits] at h
    split at h
    · split at h
      · cases h
      · exact suffix_of_skipDigits h
    · split at h
      · exact suffix_of_skipDigits h
      · rw [if_pos (by simp)] at h
        cases h

/-- The mark of a base is left out with the digits. -/
theorem suffix_of_splitBase {text rest : List Char}
    (h : skipDigits (splitBase text).1 false (splitBase text).2 = some rest) : rest <:+ text.tail := by
  unfold splitBase at h
  split at h
  case h_4 => exact suffix_tail_of_skipDigits h
  all_goals exact (suffix_of_skipDigits h).trans (List.suffix_cons _ _)

/-- So a whole number is left out at the front, and has a character at least. -/
theorem suffix_of_skipWhole {text rest : List Char} (h : skipWhole text = some rest) : rest <:+ text.tail := by
  obtain ⟨behind, hdigits, h⟩ := Option.bind_eq_some_iff.1 h
  obtain ⟨-, -, h⟩ := Option.bind_eq_some_iff.1 h
  cases h
  exact (skipSuffix_suffix behind).trans (suffix_of_splitBase hdigits)

/-- So is a number of either kind. -/
theorem suffix_of_skip {text rest : List Char} (h : skip text = some rest) : rest <:+ text.tail :=
  ((Option.orElse_eq_some _ _ _).1 h).elim suffix_of_skipFractional fun hwhole => suffix_of_skipWhole hwhole.2

end Number

/-! ## Lexemes -/

namespace Lexeme

open Text

/-- A line is left out at the front. -/
theorem splitLine_suffix (text : List Char) : (splitLine text).2 <:+ text := by
  fun_induction splitLine text with
  | case1 text => exact List.suffix_cons _ _
  | case2 text => exact List.suffix_rfl
  | case3 c text _ _ line rest hline ih =>
    rw [hline] at ih
    exact ih.trans (List.suffix_cons c text)
  | case4 => exact List.suffix_rfl

/-- So is a block comment. -/
theorem suffix_of_splitBlock {depth : Nat} {text body rest : List Char} (h : splitBlock depth text = some (body, rest)) :
    rest <:+ text := by
  fun_induction splitBlock depth text generalizing body with
  | case1 text =>
    cases h
    exact ⟨['*', '/'], rfl⟩
  | case5 => cases h
  | case4 c text depth _ _ ih =>
    obtain ⟨⟨body', after⟩, hmore, h⟩ := Option.bind_eq_some_iff.1 h
    cases h
    exact (ih hmore).trans (List.suffix_cons _ _)
  | _ _ _ ih =>
    obtain ⟨⟨body', after⟩, hmore, h⟩ := Option.bind_eq_some_iff.1 h
    cases h
    exact (ih hmore).trans ⟨[_, _], rfl⟩

/-- So is any comment. It stands for nothing, or for documentation. -/
theorem suffix_of_comment {block : Bool} {text rest : List Char} {lexemes : List Lexeme}
    (h : comment block text = some (lexemes, rest)) :
    rest <:+ text ∧ (lexemes = [] ∨ ∃ inner body, documentation inner body = some lexemes) := by
  unfold comment at h
  simp only at h
  split at h <;> obtain ⟨⟨body, behind⟩, hbody, h⟩ := Option.bind_eq_some_iff.1 h
  all_goals
    have hfound : behind = rest ∧ (lexemes = [] ∨ ∃ inner body, documentation inner body = some lexemes) := by
      simp only at h
      split at h
      · obtain ⟨found, hfound, h⟩ := Option.bind_eq_some_iff.1 h
        cases h
        exact ⟨rfl, Or.inr ⟨true, body.tail, hfound⟩⟩
      · split at h
        · obtain ⟨found, hfound, h⟩ := Option.bind_eq_some_iff.1 h
          cases h
          exact ⟨rfl, Or.inr ⟨false, body.tail, hfound⟩⟩
        · cases h
          exact ⟨rfl, Or.inl rfl⟩
    obtain ⟨rfl, hfound⟩ := hfound
  · exact ⟨suffix_of_splitBlock hbody, hfound⟩
  · have hsuffix := splitLine_suffix text
    rw [Option.some.inj hbody] at hsuffix
    exact ⟨hsuffix, hfound⟩

/-- So is a word, which has a character at least. -/
theorem suffix_of_splitWord {text word rest : List Char} (h : splitWord text = some (word, rest)) :
    rest <:+ text.tail := by
  cases text with
  | nil => cases h
  | cons c text =>
    rw [splitWord] at h
    split at h <;> cases h
    exact List.dropWhile_suffix _

/-- So is an identifier. -/
theorem suffix_of_splitIdentifier {text rest : List Char} {name : String}
    (h : splitIdentifier text = some (name, rest)) : rest <:+ text.tail := by
  unfold splitIdentifier at h
  split at h <;> obtain ⟨⟨word, behind⟩, hword, h⟩ := Option.bind_eq_some_iff.1 h
  · obtain ⟨-, -, h⟩ := Option.bind_eq_some_iff.1 h
    cases h
    exact ((suffix_of_splitWord hword).trans (List.tail_suffix _)).trans (List.suffix_cons _ _)
  · cases h
    exact suffix_of_splitWord hword

/-- A word stands in front of what is left. -/
theorem eq_append_of_splitWord {text word rest : List Char} (h : splitWord text = some (word, rest)) :
    text = word ++ rest := by
  cases text with
  | nil => cases h
  | cons c text =>
    rw [splitWord] at h
    split at h
    · cases h
      rw [List.cons_append, List.takeWhile_append_dropWhile]
    · cases h

/-- So does an identifier. -/
theorem eq_append_of_splitIdentifier {text rest : List Char} {name : String}
    (h : splitIdentifier text = some (name, rest)) : text = name.toList ++ rest := by
  unfold splitIdentifier at h
  split at h <;> obtain ⟨⟨word, behind⟩, hword, h⟩ := Option.bind_eq_some_iff.1 h
  · obtain ⟨-, -, h⟩ := Option.bind_eq_some_iff.1 h
    cases h
    rw [eq_append_of_splitWord hword, String.toList_ofList]
    rfl
  · cases h
    rw [eq_append_of_splitWord hword, String.toList_ofList]

/-- A literal is left out at the front, and has a character at least. -/
theorem suffix_of_skipLiteral {text rest : List Char} (h : skipLiteral text = some rest) : rest <:+ text.tail := by
  unfold skipLiteral at h
  split at h
  · rename_i behind hskip
    cases h
    exact (Number.skipSuffix_suffix behind).trans (StringLiteral.suffix_of_skip hskip)
  · exact Number.suffix_of_skip h

/-- A token without parts stands in front of what is left. -/
theorem eq_write_append_of_leaf? {text rest : List Char} {token : Token} (h : leaf? text = some (token, rest)) :
    text = token.write ++ rest := by
  unfold leaf? at h
  split at h
  · rename_i behind hliteral
    cases h
    obtain ⟨written, rfl⟩ := (suffix_of_skipLiteral hliteral).trans (List.tail_suffix text)
    simp [Token.write]
  · split at h
    · cases h
    · split at h
      · split at h
        · split at h <;> cases h
          rfl
        · cases h
          rfl
      · split at h
        · cases h
        · obtain ⟨⟨name, behind⟩, hname, h⟩ := Option.bind_eq_some_iff.1 h
          cases h
          exact eq_append_of_splitIdentifier hname

/-- It has a character at least. -/
theorem suffix_of_leaf? {text rest : List Char} {token : Token} (h : leaf? text = some (token, rest)) :
    rest <:+ text.tail := by
  unfold leaf? at h
  split at h
  · rename_i hliteral
    cases h
    exact suffix_of_skipLiteral hliteral
  · split at h
    · cases h
    · split at h
      · split at h
        · split at h <;> cases h
          exact List.suffix_rfl
        · cases h
          exact List.suffix_rfl
      · split at h
        · cases h
        · obtain ⟨⟨name, behind⟩, hname, h⟩ := Option.bind_eq_some_iff.1 h
          cases h
          exact suffix_of_splitIdentifier hname

/-- The characters that open and close a group. -/
def marks : Delimiter → Char × Char
  | .parenthesis => ('(', ')')
  | .bracket => ('[', ']')
  | .brace => ('{', '}')

/-- What the piece at the beginning of a text can be, `rest` being the text behind it. -/
inductive Yields (text rest : List Char) : List Lexeme → Prop where
  | gap : Yields text rest []
  | documentation {inner : Bool} {body : List Char} {lexemes : List Lexeme} :
      documentation inner body = some lexemes → Yields text rest lexemes
  | leaf {token : Token} : leaf? text = some (token, rest) → Yields text rest [.leaf token]
  | opening {delimiter : Delimiter} : text = (marks delimiter).1 :: rest → Yields text rest [.opening delimiter]
  | closing {delimiter : Delimiter} : text = (marks delimiter).2 :: rest → Yields text rest [.closing delimiter]

/-- A piece is one of these, and is left out at the front, with a character at least. -/
theorem yields_of_piece {text rest : List Char} {lexemes : List Lexeme} (h : piece text = some (lexemes, rest)) :
    rest <:+ text.tail ∧ Yields text rest lexemes := by
  have hcomment : ∀ {block behind}, behind <:+ text.tail → comment block behind = some (lexemes, rest) →
      rest <:+ text.tail ∧ Yields text rest lexemes := by
    intro block behind hbehind hc
    obtain ⟨hrest, rfl | ⟨inner, body, hdocumentation⟩⟩ := suffix_of_comment hc
    · exact ⟨hrest.trans hbehind, .gap⟩
    · exact ⟨hrest.trans hbehind, .documentation hdocumentation⟩
  unfold piece at h
  split at h
  case h_1 => exact hcomment (List.suffix_cons _ _) h
  case h_2 => exact hcomment (List.suffix_cons _ _) h
  case h_9 => cases h
  case h_10 =>
    split at h
    · cases h
      exact ⟨List.suffix_rfl, .gap⟩
    · obtain ⟨⟨token, behind⟩, hleaf, heq⟩ := Option.map_eq_some_iff.1 h
      cases heq
      exact ⟨suffix_of_leaf? hleaf, .leaf hleaf⟩
  case h_6 =>
    cases h
    exact ⟨List.suffix_rfl, .closing rfl⟩
  case h_7 =>
    cases h
    exact ⟨List.suffix_rfl, .closing rfl⟩
  case h_8 =>
    cases h
    exact ⟨List.suffix_rfl, .closing rfl⟩
  all_goals
    cases h
    exact ⟨List.suffix_rfl, .opening rfl⟩

end Lexeme

end PrivateLog
