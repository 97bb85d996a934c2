import PrivateLog.Expression.Operator
import PrivateLog.Proofs.Expression.Boundary
import PrivateLog.Proofs.Expression.Printing
import PrivateLog.Proofs.Token.Positions

/-!
# Tokens in their normal spacing

What an expression takes are the tokens it was read from with fewer of them joined to one another (`Reads.loosened`): an
operator is as long as the reader wanted it, and is joined to nothing behind it. Questions about one character have the same
answer for both; an operator of several characters that is ahead among the loosened tokens was ahead before
(`Loosened.isOperator`). From the first literal on nothing is said, since the positions of tuple fields are taken apart.
-/

namespace PrivateLog.Expression

/-- Two rows of tokens are the same up to the first literal, except that tokens joined to the next one in the first row need
not be in the second, and so are the tokens in their groups. Apostrophes stay joined, and literals stay texts, numbers, or neither. -/
inductive Loosened : List Token → List Token → Prop where
  | nil : Loosened [] []
  | ident {name : String} {a b : List Token} : Loosened a b → Loosened (.ident name :: a) (.ident name :: b)
  | punct {c : Char} {s t : Spacing} {a b : List Token} : (t = .joint → s = .joint) → (c = '\'' → t = s) →
      Loosened a b → Loosened (.punct c s :: a) (.punct c t :: b)
  | group {delimiter : Delimiter} {x y a b : List Token} : Loosened x y → Loosened a b →
      Loosened (.group delimiter x :: a) (.group delimiter y :: b)
  | literal {t u : String} {a b : List Token} : isText [.literal u] = isText [.literal t] →
      isNumber [.literal u] = isNumber [.literal t] → Loosened (.literal t :: a) (.literal u :: b)

/-- Tokens are loosened already. -/
theorem Loosened.refl : ∀ tokens : List Token, Loosened tokens tokens
  | [] => .nil
  | .ident _ :: rest => .ident (.refl rest)
  | .punct _ _ :: rest => .punct id (fun _ => rfl) (.refl rest)
  | .group _ body :: rest => .group (.refl body) (.refl rest)
  | .literal _ :: _ => .literal rfl rfl

/-! ## Words -/

/-- An identifier is a token. -/
theorem exists_of_isIdent {tokens : List Token} (h : isIdent tokens = true) : ∃ name rest, tokens = .ident name :: rest := by
  unfold isIdent at h
  split at h
  · exact ⟨_, _, rfl⟩
  · cases h

/-- A word is an identifier, -/
theorem isIdent_of_isWord {text : String} {tokens : List Token} (h : isWord text tokens = true) : isIdent tokens = true := by
  unfold isWord at h
  split at h
  · rfl
  · cases h

/-- one of several is, -/
theorem isIdent_of_isWordOf {texts : List String} {tokens : List Token} (h : isWordOf texts tokens = true) :
    isIdent tokens = true := by
  unfold isWordOf at h
  split at h
  · rfl
  · cases h

/-- and so is a name. -/
theorem isIdent_of_isName {tokens : List Token} (h : isName tokens = true) : isIdent tokens = true := by
  unfold isName at h
  split at h
  · rfl
  · cases h

/-- Where no identifier is ahead there is no word. -/
theorem isWord_eq_false_of_isIdent {text : String} {tokens : List Token} (h : isIdent tokens = false) :
    isWord text tokens = false :=
  Bool.eq_false_iff.2 fun hword => Bool.eq_false_iff.1 h (isIdent_of_isWord hword)

/-- A name is no word that is reserved. -/
theorem isWord_eq_false_of_isName (text : String) {tokens : List Token} (hreserved : isNameText text = false)
    (h : isName tokens = true) : isWord text tokens = false := by
  obtain ⟨name, rest, rfl⟩ := exists_of_isIdent (isIdent_of_isName h)
  refine Bool.eq_false_iff.2 fun hword => ?_
  obtain rfl : name = text := eq_of_beq hword
  have hname : isNameText name = true := h
  rw [hreserved] at hname
  cases hname

/-! ## Questions about loosened tokens -/

namespace Loosened

variable {a b : List Token} (h : Loosened a b)
include h

/-- There are tokens left in both rows or in none. -/
theorem isEmpty : b.isEmpty = a.isEmpty := by
  cases h <;> rfl

/-- The same identifiers are ahead, -/
theorem isIdent : isIdent b = isIdent a := by
  cases h <;> rfl

/-- the same words, -/
theorem isWord (text : String) : isWord text b = isWord text a := by
  cases h <;> rfl

/-- one of several words or none, -/
theorem isWordOf (texts : List String) : isWordOf texts b = isWordOf texts a := by
  cases h <;> rfl

/-- the same names, -/
theorem isName : isName b = isName a := by
  cases h <;> rfl

/-- the same groups, -/
theorem isGroup (delimiter : Delimiter) : isGroup delimiter b = isGroup delimiter a := by
  cases h <;> rfl

/-- in whichever brackets, -/
theorem isTree : isTree b = isTree a := by
  cases h <;> rfl

/-- literals where there were some, -/
theorem isLiteral : isLiteral b = isLiteral a := by
  cases h <;> rfl

/-- among them texts -/
theorem isText : isText b = isText a := by
  cases h with
  | literal htext => exact htext
  | _ => rfl

/-- and numbers. -/
theorem isNumber : isNumber b = isNumber a := by
  cases h with
  | literal _ hnumber => exact hnumber
  | _ => rfl

/-- A lifetime stays one. -/
theorem isLifetime : isLifetime b = isLifetime a := by
  cases h with
  | @punct c s t a b _ happostrophe hab =>
    by_cases hc : c = '\''
    · obtain rfl := happostrophe hc
      cases hab <;> subst hc <;> cases t <;> rfl
    · have hnone : ∀ (s : Spacing) (a : List Token), Expression.isLifetime (.punct c s :: a) = false := by
        intro s a
        unfold Expression.isLifetime
        split
        · rename_i heq
          cases heq
          exact absurd rfl hc
        · rfl
      rw [hnone, hnone]
  | _ => rfl

/-- Operators that are ahead were ahead before. -/
theorem isOperator {text : String} (hb : isOperator text b = true) : Expression.isOperator text a = true := by
  have hspelled : ∀ {cs : List Char} {a b : List Token}, Loosened a b → isSpelled cs b = true → isSpelled cs a = true := by
    intro cs
    induction cs with
    | nil =>
      intro a b _ _
      cases a <;> rfl
    | cons c cs ih =>
      intro a b h hb
      cases h with
      | punct hjoint _ hab =>
        simp only [isSpelled, Bool.and_eq_true, Bool.or_eq_true, beq_iff_eq] at hb ⊢
        exact ⟨⟨hb.1.1, hb.1.2.imp_right hjoint⟩, ih hab hb.2⟩
      | _ => cases hb
  exact hspelled h hb

/-- An operator of a single character is ahead in both rows or in none. -/
theorem isOperator_of_length (text : String) (hlength : text.toList.length = 1) :
    Expression.isOperator text b = Expression.isOperator text a := by
  obtain ⟨c, hc⟩ := List.length_eq_one_iff.1 hlength
  rw [Expression.isOperator, Expression.isOperator, hc]
  cases h with
  | punct _ _ hab => simp [isSpelled]
  | _ => rfl

/-- The same holds of several such operators. -/
theorem isOperatorOf_of_length {texts : List String} (hlength : ∀ text ∈ texts, text.toList.length = 1) :
    isOperatorOf texts b = isOperatorOf texts a := by
  induction texts with
  | nil => rfl
  | cons text texts ih =>
    obtain ⟨htext, htexts⟩ := List.forall_mem_cons.1 hlength
    rw [isOperatorOf, isOperatorOf, List.any_cons, List.any_cons, h.isOperator_of_length text htext]
    exact congrArg _ (ih htexts)

/-- An operator that was not ahead is not ahead. -/
theorem isOperator_eq_false {text : String} (ha : Expression.isOperator text a = false) :
    Expression.isOperator text b = false :=
  Bool.eq_false_iff.2 fun hb => Bool.eq_false_iff.1 ha (h.isOperator hb)

/-- One of several operators that is ahead was ahead before. -/
theorem isOperatorOf {texts : List String} (hb : Expression.isOperatorOf texts b = true) :
    Expression.isOperatorOf texts a = true := by
  obtain ⟨text, hm, htext⟩ := List.any_eq_true.1 hb
  exact List.any_eq_true.2 ⟨text, hm, h.isOperator htext⟩

/-- Behind an operator the rows go on as they do, -/
theorem behind_operator {text : String} (n : Nat) (hlength : text.toList.length = n)
    (hoperator : Expression.isOperator text a = true) : Loosened (a.drop n) (b.drop n) := by
  have hspelled : ∀ {cs : List Char} {a b : List Token}, Loosened a b → isSpelled cs a = true →
      Loosened (a.drop cs.length) (b.drop cs.length) := by
    intro cs
    induction cs with
    | nil => exact fun h _ => h
    | cons c cs ih =>
      intro a b h ha
      obtain ⟨_, _, rfl, -, hrest⟩ := exists_of_isSpelled ha
      cases h with
      | punct _ _ hab => exact ih hab hrest
  rw [← hlength]
  exact hspelled h hoperator

/-- behind an identifier, -/
theorem behind_ident (hident : Expression.isIdent a = true) : Loosened (a.drop 1) (b.drop 1) := by
  cases h with
  | ident hab => exact hab
  | nil | punct | group | literal => cases hident

/-- behind a group, -/
theorem behind_group {delimiter : Delimiter} (hgroup : Expression.isGroup delimiter a = true) :
    Loosened (a.drop 1) (b.drop 1) := by
  cases h with
  | group _ hab => exact hab
  | nil | ident | punct | literal => cases hgroup

/-- and behind a lifetime. -/
theorem behind_lifetime (hlifetime : Expression.isLifetime a = true) : Loosened (a.drop 2) (b.drop 2) := by
  obtain ⟨name, others, rfl⟩ := exists_of_isLifetime hlifetime
  cases h with
  | punct _ _ hrest =>
    cases hrest with
    | ident hab => exact hab

/-- A range with attributes in front had them before. -/
theorem isTaggedRange (hb : isTaggedRange b = true) : Expression.isTaggedRange a = true := by
  simp only [Expression.isTaggedRange, Bool.and_eq_true] at hb ⊢
  obtain ⟨⟨hmark, hgroup⟩, hdots⟩ := hb
  rw [h.isOperator_of_length "#" rfl] at hmark
  have hbehind := h.behind_operator 1 rfl hmark
  rw [hbehind.isGroup] at hgroup
  have hrange : Loosened ((a.drop 1).drop 1) ((b.drop 1).drop 1) := hbehind.behind_group hgroup
  rw [List.drop_drop, List.drop_drop] at hrange
  exact ⟨⟨hmark, hgroup⟩, hrange.isOperator hdots⟩

/-- A binder has no operator of several characters. -/
theorem isBinder : isBinder b = isBinder a := by
  have hbehind : (Expression.isWord "for" a && (Expression.isOperator "<" (b.drop 1) &&
      (Expression.isLifetime (b.drop 2) || Expression.isOperator ">" (b.drop 2)))) =
      (Expression.isWord "for" a && (Expression.isOperator "<" (a.drop 1) &&
        (Expression.isLifetime (a.drop 2) || Expression.isOperator ">" (a.drop 2)))) :=
    and_congr_ahead fun hword => by
      have hab := h.behind_ident (isIdent_of_isWord hword)
      rw [hab.isOperator_of_length "<" rfl]
      refine and_congr_ahead fun hoperator => ?_
      have hbehind : Loosened ((a.drop 1).drop 1) ((b.drop 1).drop 1) := hab.behind_operator 1 rfl hoperator
      rw [List.drop_drop, List.drop_drop] at hbehind
      rw [hbehind.isLifetime, hbehind.isOperator_of_length ">" rfl]
  simpa only [Expression.isBinder, h.isWord, Bool.and_assoc] using hbehind

/-- A question behind an identifier has the same answer if it has for all loosened tokens. -/
theorem and_behind {front : Bool} {question : List Token → Bool} (hident : front = true → Expression.isIdent a = true)
    (hquestion : ∀ {a b}, Loosened a b → question b = question a) :
    (front && question (b.drop 1)) = (front && question (a.drop 1)) :=
  and_congr_ahead fun hfront => hquestion (h.behind_ident (hident hfront))

/-- So a closure begins in both rows or in none, -/
theorem startsClosure : startsClosure b = startsClosure a := by
  have hconst : (Expression.isWord "const" a && !Expression.isGroup .brace (b.drop 1)) =
      (Expression.isWord "const" a && !Expression.isGroup .brace (a.drop 1)) :=
    h.and_behind isIdent_of_isWord fun h => congrArg (!·) (h.isGroup .brace)
  have hasync : (Expression.isWord "async" a && (Expression.isOperator "|" (b.drop 1) || Expression.isWord "move" (b.drop 1))) =
      (Expression.isWord "async" a && (Expression.isOperator "|" (a.drop 1) || Expression.isWord "move" (a.drop 1))) :=
    h.and_behind isIdent_of_isWord fun h => congrArg₂ (· || ·) (h.isOperator_of_length "|" rfl) (h.isWord "move")
  simp only [Expression.startsClosure, h.isOperator_of_length "|" rfl, h.isWordOf, h.isWord, h.isBinder, hconst, hasync]

/-- an asynchronous block, -/
theorem startsAsyncBlock : startsAsyncBlock b = startsAsyncBlock a := by
  have hmove : ∀ {a b : List Token}, Loosened a b → (Expression.isWord "move" b && Expression.isGroup .brace (b.drop 1)) =
      (Expression.isWord "move" a && Expression.isGroup .brace (a.drop 1)) := fun h => by
    rw [h.isWord, h.and_behind isIdent_of_isWord fun h => h.isGroup .brace]
  have hasync : (Expression.isWord "async" a && (Expression.isGroup .brace (b.drop 1) ||
      (Expression.isWord "move" (b.drop 1) && Expression.isGroup .brace ((b.drop 1).drop 1)))) =
      (Expression.isWord "async" a && (Expression.isGroup .brace (a.drop 1) ||
        (Expression.isWord "move" (a.drop 1) && Expression.isGroup .brace ((a.drop 1).drop 1)))) :=
    h.and_behind isIdent_of_isWord fun h => congrArg₂ (· || ·) (h.isGroup .brace) (hmove h)
  simpa only [Expression.startsAsyncBlock, List.drop_drop, h.isWord] using hasync

/-- and an expression that ends with its block. -/
theorem startsBlock : startsBlock b = startsBlock a := by
  have hbraces : (Expression.isWordOf ["try", "const"] a && Expression.isGroup .brace (b.drop 1)) =
      (Expression.isWordOf ["try", "const"] a && Expression.isGroup .brace (a.drop 1)) :=
    h.and_behind isIdent_of_isWordOf fun h => h.isGroup .brace
  simp only [Expression.startsBlock, h.isWordOf, h.isWord, h.isGroup, h.isLifetime, h.isBinder, hbraces]

/-- The same words are ahead of what is no such word. -/
theorem wordsAhead (texts : List String) : wordsAhead texts b = wordsAhead texts a := by
  induction texts generalizing a b with
  | nil => rfl
  | cons text texts ih =>
    rw [Expression.wordsAhead, Expression.wordsAhead, h.isWord, ih h]
    split
    · rename_i hword
      rw [ih (h.behind_ident (isIdent_of_isWord hword))]
    · rfl

end Loosened

/-! ## What is taken is loosened -/

/-- The characters of an operator that is ahead are ahead in their normal spacing. -/
theorem isSpelled_operatorTokens_append (cs : List Char) (tokens : List Token) :
    isSpelled cs (operatorTokens cs ++ tokens) = true := by
  induction cs with
  | nil => cases tokens <;> rfl
  | cons c cs ih =>
    cases cs with
    | nil => simp [operatorTokens, isSpelled]
    | cons d cs => simpa [operatorTokens, isSpelled] using ih

/-- The normal spacing of an operator has a token for each character. -/
theorem drop_operatorTokens_append (cs : List Char) (tokens : List Token) :
    (operatorTokens cs ++ tokens).drop cs.length = tokens := by
  induction cs with
  | nil => rfl
  | cons c cs ih =>
    cases cs with
    | nil => rfl
    | cons d cs => exact ih

/-- An operator that is ahead is loosened in its normal spacing. -/
theorem loosened_operatorTokens {cs : List Char} {tokens taken : List Token} (hspelled : isSpelled cs tokens = true)
    (hcs : ∀ c ∈ cs, c ≠ '\'') (h : Loosened (tokens.drop cs.length) taken) :
    Loosened tokens (operatorTokens cs ++ taken) := by
  induction cs generalizing tokens with
  | nil => exact h
  | cons c cs ih =>
    obtain ⟨hc, hcs⟩ := List.forall_mem_cons.1 hcs
    obtain ⟨spacing, others, rfl, hjoint, hothers⟩ := exists_of_isSpelled hspelled
    have hbehind := ih hothers hcs h
    cases cs with
    | nil => exact .punct nofun (fun heq => absurd heq hc) hbehind
    | cons d cs => exact .punct (fun _ => hjoint (List.cons_ne_nil d cs)) (fun heq => absurd heq hc) hbehind

/-- What names tuple fields is a number, and no text. -/
theorem isNumber_of_fieldPath? {text : String} {positions : List Nat} {dotted : Bool}
    (h : Number.fieldPath? text.toList = some (positions, dotted)) :
    isText [.literal text] = false ∧ isNumber [.literal text] = true := by
  obtain ⟨c, rest, htext, hc⟩ := Number.exists_first_of_fieldPath? h
  have hnumber : isNumber [.literal text] = true := by simpa [isNumber, htext, marks] using hc
  simp only [List.mem_cons, not_or] at hc
  refine ⟨?_, hnumber⟩
  simp only [isText, StringLiteral.value?, htext]
  split
  · rename_i heq
    exact absurd (List.cons.inj heq).1 hc.1
  · rename_i heq
    exact absurd (List.cons.inj heq).1 hc.2.2.2.2.1
  · rfl

variable {leftovers : Leftovers} {symbols : List Symbol} {found last : Form} {tokens taken left : List Token}

/-- What is read up to the end is a loosening of the tokens, and so is what is read in each group. -/
theorem Reads.loosened (h : Reads .refused symbols found tokens taken last left) (hleft : left = [])
    (hspelt : symbols.all Symbol.isSpelt = true) : Loosened tokens taken := by
  induction h with
  | nil =>
    subst hleft
    exact .nil
  | form _ ih => exact ih hleft hspelt
  | goal hp _ ih =>
    rw [List.all_cons, Bool.and_eq_true] at hspelt
    refine ih hleft ?_
    rw [List.all_append, all_isSpelt_production hp, hspelt.2, Bool.and_self]
  | group _ hused _ hinner ih =>
    rw [List.all_cons, Bool.and_eq_true] at hspelt
    exact .group (hinner (hused.resolve_left nofun) rfl) (ih hleft hspelt.2)
  | terminal ht _ ih =>
    rw [List.all_cons, Bool.and_eq_true] at hspelt
    have hrest := ih hleft hspelt.2
    cases takeTerminal?_eq_some_iff.1 ht with
    | @operator text _ hoperator =>
      have hcs := hspelt.1
      simp only [Symbol.isSpelt, Bool.and_eq_true, decide_eq_true_eq, List.all_eq_true] at hcs
      rw [← String.length_toList] at hrest
      exact loosened_operatorTokens hoperator hcs.2 hrest
    | @literal token _ hliteral =>
      cases token with
      | ident => exact .ident hrest
      | literal => exact .literal rfl rfl
      | punct | group => cases hliteral
    | @position text positions dotted _ hpath =>
      cases positions with
      | nil => exact absurd rfl (Number.fieldPath?_ne_nil hpath)
      | cons n ns =>
        obtain ⟨-, -, hbound⟩ := Number.exists_parts_of_fieldPath? hpath
        obtain ⟨htext, hnumber⟩ := isNumber_of_fieldPath? hpath
        obtain ⟨hagain, hplain⟩ := isNumber_of_fieldPath? (Number.fieldPath?_toString (hbound n List.mem_cons_self))
        cases ns <;> exact .literal (hagain.trans htext.symm) (hplain.trans hnumber.symm)
    | word | name => exact .ident hrest
    | lifetime => exact .punct id (fun _ => rfl) (.ident hrest)
    | tree => exact .group (.refl _) hrest

/-- What a terminal takes is taken again in its normal spacing, except for the positions of tuple fields. -/
theorem takeTerminal?_append {symbol : Symbol} (h : takeTerminal? symbol tokens = some (taken, left))
    (hsymbol : symbol ≠ .position) (more : List Token) :
    takeTerminal? symbol (taken ++ more) = some (taken, more) := by
  rw [takeTerminal?_eq_some_iff] at h ⊢
  cases h with
  | @operator text =>
    have htakes := Takes.operator (isSpelled_operatorTokens_append text.toList more)
    rwa [← String.length_toList, drop_operatorTokens_append] at htakes
  | word => exact .word
  | name hname => exact .name hname
  | literal hliteral => exact .literal hliteral
  | lifetime => exact .lifetime
  | position => exact absurd rfl hsymbol
  | tree => exact .tree

end PrivateLog.Expression
