import PrivateLog.Expression.Basic
import PrivateLog.Proofs.Expression.Enough
import PrivateLog.Proofs.Token.Printing

/-!
# Printed expressions

The normal spacing of an expression keeps its tokens legible: an operator has the characters that were ahead, joined as they
were, and the number of a tuple field is a literal again (`legible_of_takeTerminal?`); everything else is taken as it stands
(`Reads.legible`). So the text of an expression that was read from source text is read as the tokens of the expression
(`read?_text_of_parse`).
-/

namespace PrivateLog.Expression

open Token (Legible)

/-! ## What a terminal takes -/

/-- A punctuation character that stands anywhere is one. -/
theorem isPunctuation_of_legible {c : Char} {spacing : Spacing} {tokens : List Token}
    (h : Legible (.punct c spacing :: tokens)) : Lexeme.isPunctuation c = true := by
  cases h.1 with
  | alone hc => exact hc
  | joint _ hjoins => exact ((Lexeme.startsPunctuation_cons c _).1 hjoins.1).1

/-- An operator that is ahead begins with its first character, which is joined to the next one. -/
theorem exists_of_isSpelled {c : Char} {cs : List Char} {tokens : List Token} (h : isSpelled (c :: cs) tokens = true) :
    ∃ spacing others, tokens = .punct c spacing :: others ∧ (cs ≠ [] → spacing = .joint) ∧ isSpelled cs others = true := by
  cases tokens with
  | nil => cases h
  | cons token others =>
    cases token with
    | punct d spacing =>
      simp only [isSpelled, Bool.and_eq_true, Bool.or_eq_true, beq_iff_eq, List.isEmpty_iff] at h
      obtain ⟨⟨rfl, hjoint⟩, hothers⟩ := h
      exact ⟨spacing, others, rfl, hjoint.resolve_left, hothers⟩
    | ident | literal | group => cases h

/-- The characters of an operator that is ahead are legible in their normal spacing. -/
theorem legible_operatorTokens {cs : List Char} {tokens : List Token} (hspelled : isSpelled cs tokens = true)
    (hcs : ∀ c ∈ cs, c ≠ '\'') (h : Legible tokens) : Legible (operatorTokens cs) := by
  induction cs generalizing tokens with
  | nil => trivial
  | cons c cs ih =>
    obtain ⟨hc, hcs⟩ := List.forall_mem_cons.1 hcs
    obtain ⟨spacing, others, rfl, hjoint, hothers⟩ := exists_of_isSpelled hspelled
    cases cs with
    | nil => exact ⟨.alone (isPunctuation_of_legible h) hc, trivial⟩
    | cons d cs =>
      obtain rfl := hjoint (List.cons_ne_nil d cs)
      have hbehind := ih hothers hcs h.2
      obtain ⟨spacing, more, rfl, -⟩ := exists_of_isSpelled hothers
      cases h.1 with
      | joint heq hjoins =>
        cases heq
        -- How the next character is spaced does not matter to the one before it.
        cases cs with
        | nil => exact ⟨.joint rfl hjoins, hbehind⟩
        | cons e cs => exact ⟨.joint rfl hjoins, hbehind⟩

/-- The number of a tuple field is a literal. -/
theorem legible_number (n : Nat) : Legible [.literal (toString n)] := by
  have htext : (toString n).toList = Nat.toDigits 10 n := by simp
  have hdigits : ∀ c ∈ (toString n).toList, c.isDigit = true := by
    rw [htext]
    exact fun c hc => Nat.isDigit_of_mem_toDigits (by decide) (by decide) hc
  have hne : (toString n).toList ≠ [] := by
    rw [htext]
    exact Nat.toDigits_ne_nil
  have hliteral : Lexeme.skipLiteral ((toString n).toList ++ []) = some [] := by
    obtain ⟨c, text, heq⟩ := List.exists_cons_of_ne_nil hne
    rw [List.append_nil]
    rw [heq] at hdigits ⊢
    rw [Lexeme.skipLiteral, Lexeme.skip_of_isDigit (hdigits c List.mem_cons_self)]
    exact Number.skip_of_isDigit hdigits (List.cons_ne_nil c text)
  exact ⟨.literal hliteral, trivial⟩

/-- The positions of tuple fields are legible. -/
theorem legible_positionTokens (dotted : Bool) (positions : List Nat) : Legible (positionTokens dotted positions) := by
  have hdot : Legible [.punct '.' .alone] := ⟨.alone (by decide) (by decide), trivial⟩
  induction positions with
  | nil => trivial
  | cons n ns ih =>
    cases ns with
    | nil =>
      cases dotted with
      | false => exact legible_number n
      | true => exact (legible_number n).append hdot
    | cons m ns => exact (legible_number n).append (hdot.append ih)

/-- What a terminal takes is legible in its normal spacing. -/
theorem legible_of_takeTerminal? {symbol : Symbol} {tokens taken left : List Token} (hspelt : symbol.isSpelt = true)
    (h : Legible tokens) (htaken : takeTerminal? symbol tokens = some (taken, left)) : Legible taken := by
  cases takeTerminal?_eq_some_iff.1 htaken with
  | operator hoperator =>
    simp only [Symbol.isSpelt, Bool.and_eq_true, decide_eq_true_eq, List.all_eq_true] at hspelt
    exact legible_operatorTokens hoperator hspelt.2 h
  | lifetime =>
    cases h.1 with
    | joint heq hjoins =>
      cases heq
      exact ⟨.joint rfl hjoins, Legible.head h.2 rfl⟩
  | position => exact legible_positionTokens _ _
  | @literal token _ hliteral =>
    cases token with
    | ident | literal => exact h.head rfl
    | punct | group => cases hliteral
  | word | name | tree => exact h.head rfl

/-! ## What is read -/

/-- What is read from legible tokens is legible. -/
theorem Reads.legible {leftovers : Leftovers} {symbols : List Symbol} {found last : Form} {tokens taken left : List Token}
    (h : Reads leftovers symbols found tokens taken last left) (hspelt : symbols.all Symbol.isSpelt = true)
    (hlegible : Legible tokens) : Legible taken := by
  induction h with
  | nil => trivial
  | form _ ih => exact ih hspelt hlegible
  | @goal goal production symbols found last tokens taken left hproduction _ ih =>
    rw [List.all_cons, Bool.and_eq_true] at hspelt
    refine ih ?_ hlegible
    have hfits := all_fits_production found tokens goal
    rw [hproduction, Option.all_some, Goal.fits, Bool.and_eq_true, Bool.and_eq_true] at hfits
    rw [List.all_append, hfits.1.1, hspelt.2]
    rfl
  | group _ _ _ ihInner ihOuter =>
    rw [List.all_cons, Bool.and_eq_true] at hspelt
    obtain ⟨hbody, hrest⟩ := Token.legible_group.1 hlegible
    exact Token.legible_group.2 ⟨ihInner rfl hbody, ihOuter hspelt.2 hrest⟩
  | terminal ht _ ih =>
    rw [List.all_cons, Bool.and_eq_true] at hspelt
    obtain ⟨used, rfl, -⟩ := exists_used_of_takeTerminal? ht
    exact (legible_of_takeTerminal? hspelt.1 hlegible ht).append (ih hspelt.2 hlegible.of_append)

/-- An expression that is read from legible tokens is legible. -/
theorem legible_of_ofTokens? {tokens expression : List Token} (h : ofTokens? tokens = some expression)
    (hlegible : Legible tokens) : Legible expression := by
  obtain ⟨_, hreads⟩ := ofTokens?_eq_some_iff.1 h
  exact hreads.legible rfl hlegible

/-! ## The text of an expression -/

/-- The text of an expression that was read from source text is read as the tokens of the expression. -/
theorem read?_text_of_parse {text : String} {place : Span} {expression : Expression}
    (h : parse text place = .ok expression) : Token.read? expression.text.toList = some expression.tokens := by
  obtain ⟨-, tokens, htokens, rfl⟩ := parse_eq_ok_iff.1 h
  obtain ⟨source, hsource, hexpression⟩ := Option.bind_eq_some_iff.1 htokens
  rw [Token.text, String.toList_ofList]
  exact Token.read?_writeAll (legible_of_ofTokens? hexpression (Token.legible_of_read? hsource))

end PrivateLog.Expression
