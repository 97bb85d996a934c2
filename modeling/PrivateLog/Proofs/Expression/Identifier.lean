import PrivateLog.Expression.Basic
import PrivateLog.Proofs.Expression.Enough
import Mathlib.Data.Option.Basic

/-!
# Expressions that are one identifier

Reading an expression from a single identifier takes the identifier or nothing (`Reads.append_of_ident`), so an expression
whose text is one identifier is that identifier (`tokens_of_parse`).
-/

namespace PrivateLog.Expression

open Text

variable {name : String}

/-- Of a single identifier a terminal takes all or nothing. -/
theorem append_of_takeTerminal? {symbol : Symbol} {tokens taken rest : List Token}
    (htokens : tokens = [] ∨ tokens = [.ident name]) (h : takeTerminal? symbol tokens = some (taken, rest)) :
    taken ++ rest = tokens := by
  cases takeTerminal?_eq_some_iff.1 h with
  | @operator text _ hoperator =>
    have hempty : text.toList = [] := by
      cases htext : text.toList with
      | nil => rfl
      | cons c cs => rcases htokens with rfl | rfl <;> simp [isOperator, htext, isSpelled] at hoperator
    have hlength : text.length = 0 := by
      rw [← String.length_toList, hempty]
      rfl
    rw [hempty, hlength]
    rfl
  | word | name | literal => rfl
  | lifetime | position | tree => rcases htokens with heq | heq <;> cases heq

/-- So reading symbols takes all or nothing of it. -/
theorem Reads.append_of_ident {leftovers : Leftovers} {symbols : List Symbol} {found last : Form}
    {tokens taken left : List Token} (h : Reads leftovers symbols found tokens taken last left)
    (htokens : tokens = [] ∨ tokens = [.ident name]) : taken ++ left = tokens := by
  induction h with
  | nil => rfl
  | form _ ih => exact ih htokens
  | goal _ _ ih => exact ih htokens
  | group => rcases htokens with heq | heq <;> cases heq
  | terminal ht _ ih =>
    have htaken := append_of_takeTerminal? htokens ht
    -- What a terminal leaves is the identifier again, or nothing.
    rcases htokens with rfl | rfl
    · obtain ⟨rfl, rfl⟩ := List.append_eq_nil_iff.1 htaken
      exact ih (Or.inl rfl)
    · rcases List.append_eq_singleton_iff.1 htaken with ⟨rfl, rfl⟩ | ⟨rfl, rfl⟩
      · exact ih (Or.inr rfl)
      · rw [List.append_assoc, ih (Or.inl rfl), List.append_nil]

/-- An identifier that is an expression is that identifier. -/
theorem ofTokens?_ident {tokens : List Token} (h : ofTokens? [.ident name] = some tokens) : tokens = [.ident name] := by
  obtain ⟨_, hreads⟩ := ofTokens?_eq_some_iff.1 h
  have happend := hreads.append_of_ident (Or.inr rfl)
  rwa [List.append_nil] at happend

/-- A text that is read as one identifier is parsed as that identifier. -/
theorem tokens_of_parse {text : String} {place : Span} {expression : Expression}
    (hread : Token.read? (trim text.toList) = some [.ident name]) (h : parse text place = .ok expression) :
    expression.tokens = [.ident name] := by
  obtain ⟨-, tokens, htokens, rfl⟩ := parse_eq_ok_iff.1 h
  rw [hread] at htokens
  exact ofTokens?_ident htokens

/-- The word that an expression is, if it is a single identifier. -/
def word? (expression : Expression) : Option String :=
  match expression.tokens with
  | [.ident name] => some name
  | _ => none

/-- Expressions that are words have these identifiers for their only tokens. -/
theorem map_tokens_of_word? {expressions : List Expression} {words : List String}
    (h : expressions.map word? = words.map some) : expressions.map (·.tokens) = words.map fun word => [.ident word] := by
  induction expressions generalizing words with
  | nil =>
    cases words with
    | nil => rfl
    | cons word words => cases h
  | cons expression expressions ih =>
    cases words with
    | nil => cases h
    | cons word words =>
      rw [List.map_cons, List.map_cons, List.cons.injEq] at h
      obtain ⟨hword, hrest⟩ := h
      rw [List.map_cons, List.map_cons, ih hrest]
      unfold word? at hword
      split at hword
      · rename_i htokens
        cases hword
        rw [htokens]
      · cases hword

/-- A text that is a name is read as one identifier. -/
theorem read?_of_nameOfText? {text name : String} (h : Expression.nameOfText? text = some name) :
    Token.read? text.toList = some [.ident name] := by
  unfold Expression.nameOfText? at h
  split at h
  · rename_i hread
    split at h <;> cases h
    exact hread
  · cases h

end PrivateLog.Expression
