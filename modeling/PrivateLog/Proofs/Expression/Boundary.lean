import PrivateLog.Proofs.Expression.Enough
import Mathlib.Data.List.Find

/-!
# Where an expression ends

An expression ends at a comma as it ends at the end of the tokens (`readFrom_append`). The commas that belong to it stand
in brackets, or between the arguments of a path and the inputs of a closure, where the reader knows that it is not done.
For the questions about the tokens ahead, a comma is as good as nothing, since no operator holds one; hence so it is for
the productions of all goals that stand outside of brackets (`production_append`), and for derivations.
-/

namespace PrivateLog.Expression

/-! ## Looking further ahead -/

/-- A guard has to hold before the rest is looked at. -/
theorem and_congr_ahead {a b c : Bool} (h : a = true → b = c) : (a && b) = (a && c) := by
  cases a with
  | true => rw [h rfl]
  | false => rfl

/-- An operator has as many tokens as characters. -/
theorem le_length_of_isOperator (tokens : List Token) {text : String} (h : isOperator text tokens = true) :
    text.length ≤ tokens.length := by
  obtain ⟨used, htokens, hlength, -⟩ := exists_used_of_isSpelled h
  rw [htokens, List.length_append, hlength, String.length_toList]
  exact Nat.le_add_right _ _

/-- A lifetime has two tokens. -/
theorem le_length_of_isLifetime (tokens : List Token) (h : isLifetime tokens = true) : 2 ≤ tokens.length := by
  unfold isLifetime at h
  split at h
  · simp
  · cases h

/-- A word has one. -/
theorem le_length_of_isWord (tokens : List Token) {text : String} (h : isWord text tokens = true) : 1 ≤ tokens.length := by
  cases tokens with
  | nil => cases h
  | cons => simp

/-- And so has a group. -/
theorem le_length_of_isGroup (tokens : List Token) {delimiter : Delimiter} (h : isGroup delimiter tokens = true) :
    1 ≤ tokens.length := by
  cases tokens with
  | nil => cases h
  | cons => simp

/-! ## Looking at a comma -/

/-- Whether some tokens are at their end, or at a comma. -/
def EndsExpression (rest : List Token) : Prop :=
  rest = [] ∨ ∃ spacing more, rest = .punct ',' spacing :: more

section

variable {rest : List Token} (hrest : EndsExpression rest) (tokens : List Token)
include hrest

/-- A question about the first token alone, which a comma does not fulfil, has the same answer. -/
theorem ask_append {question : List Token → Bool} (hnil : question [] = false)
    (hcomma : ∀ spacing more, question (.punct ',' spacing :: more) = false)
    (hcons : ∀ token more more', question (token :: more) = question (token :: more')) :
    question (tokens ++ rest) = question tokens := by
  cases tokens with
  | nil =>
    rcases hrest with rfl | ⟨spacing, more, rfl⟩
    · rfl
    · rw [List.nil_append, hcomma, hnil]
  | cons token tokens => exact hcons token _ _

/-- A comma is no identifier, -/
theorem isIdent_append : isIdent (tokens ++ rest) = isIdent tokens :=
  ask_append hrest tokens rfl (fun _ _ => rfl) fun token _ _ => by cases token <;> rfl

/-- no word, -/
theorem isWord_append (text : String) : isWord text (tokens ++ rest) = isWord text tokens :=
  ask_append hrest tokens rfl (fun _ _ => rfl) fun token _ _ => by cases token <;> rfl

/-- none of several words, -/
theorem isWordOf_append (texts : List String) : isWordOf texts (tokens ++ rest) = isWordOf texts tokens :=
  ask_append hrest tokens rfl (fun _ _ => rfl) fun token _ _ => by cases token <;> rfl

/-- no name, -/
theorem isName_append : isName (tokens ++ rest) = isName tokens :=
  ask_append hrest tokens rfl (fun _ _ => rfl) fun token _ _ => by cases token <;> rfl

/-- no group, -/
theorem isGroup_append (delimiter : Delimiter) : isGroup delimiter (tokens ++ rest) = isGroup delimiter tokens :=
  ask_append hrest tokens rfl (fun _ _ => rfl) fun token _ _ => by cases token <;> rfl

/-- whichever its brackets are, -/
theorem isTree_append : isTree (tokens ++ rest) = isTree tokens :=
  ask_append hrest tokens rfl (fun _ _ => rfl) fun token _ _ => by cases token <;> rfl

/-- no literal, -/
theorem isLiteral_append : isLiteral (tokens ++ rest) = isLiteral tokens :=
  ask_append hrest tokens rfl (fun _ _ => rfl) fun token _ _ => by cases token <;> rfl

/-- neither a text -/
theorem isText_append : isText (tokens ++ rest) = isText tokens :=
  ask_append hrest tokens rfl (fun _ _ => rfl) fun token _ _ => by cases token <;> rfl

/-- nor a number, -/
theorem isNumber_append : isNumber (tokens ++ rest) = isNumber tokens :=
  ask_append hrest tokens rfl (fun _ _ => rfl) fun token _ _ => by cases token <;> rfl

/-- and no part of a lifetime. -/
theorem isLifetime_append : isLifetime (tokens ++ rest) = isLifetime tokens := by
  rcases hrest with rfl | ⟨spacing, more, rfl⟩
  · rw [List.append_nil]
  · match tokens with
    | [] => simp [isLifetime]
    | [token] => simp [isLifetime]
    | token :: name :: tokens =>
      unfold isLifetime
      split
      · rename_i heq
        cases heq
        rfl
      · rename_i hne
        split
        · rename_i heq
          cases heq
          exact absurd rfl (hne _ _)
        · rfl

/-- Nor is it a part of what is spelt without a comma: -/
theorem isSpelled_append {cs : List Char} (h : ',' ∉ cs) : isSpelled cs (tokens ++ rest) = isSpelled cs tokens := by
  induction cs generalizing tokens with
  | nil => cases tokens <;> cases rest <;> rfl
  | cons c cs ih =>
    obtain ⟨hc, hcs⟩ := not_or.1 (fun hm => h (List.mem_cons.2 hm))
    cases tokens with
    | nil =>
      rcases hrest with rfl | ⟨spacing, more, rfl⟩
      · rfl
      · simp [isSpelled, Ne.symm hc]
    | cons token tokens =>
      cases token with
      | punct d spacing => rw [List.cons_append, isSpelled, isSpelled, ih tokens hcs]
      | _ => rfl

/-- an operator, -/
theorem isOperator_append (text : String) (h : ',' ∉ text.toList) :
    isOperator text (tokens ++ rest) = isOperator text tokens :=
  isSpelled_append hrest tokens h

/-- one of several operators, -/
theorem isOperatorOf_append {texts : List String} (h : ∀ text ∈ texts, ',' ∉ text.toList) :
    isOperatorOf texts (tokens ++ rest) = isOperatorOf texts tokens := by
  induction texts with
  | nil => rfl
  | cons text texts ih =>
    obtain ⟨htext, htexts⟩ := List.forall_mem_cons.1 h
    rw [isOperatorOf, isOperatorOf, List.any_cons, List.any_cons, isOperator_append hrest tokens text htext]
    exact congrArg _ (ih htexts)

/-- a dot, -/
theorem isDot_append : isDot (tokens ++ rest) = isDot tokens := by
  simp (disch := decide) only [isDot, isOperator_append hrest]

/-- the mark of a macro call, -/
theorem isBang_append : isBang (tokens ++ rest) = isBang tokens := by
  simp (disch := decide) only [isBang, isOperator_append hrest]

/-- or a bar. -/
theorem isBar_append : isBar (tokens ++ rest) = isBar tokens := by
  simp (disch := decide) only [isBar, isOperator_append hrest]

/-- No path begins with it. -/
theorem startsPath_append : startsPath (tokens ++ rest) = startsPath tokens := by
  simp (disch := decide) only [startsPath, isOperatorOf_append hrest, isName_append hrest, isWordOf_append hrest]

/-- For the parts of paths it makes no difference whether a comma is ahead or nothing. -/
theorem pathProduction_append (goal : PathGoal) : pathProduction goal (tokens ++ rest) = pathProduction goal tokens := by
  cases goal with
  | name | segment style =>
    cases tokens with
    | nil => rcases hrest with rfl | ⟨spacing, more, rfl⟩ <;> rfl
    | cons token tokens => cases token <;> rfl
  | moreSegments style =>
    have hnext : (isOperator "::" tokens && !isGroup .parenthesis ((tokens ++ rest).drop 2)) =
        (isOperator "::" tokens && !isGroup .parenthesis (tokens.drop 2)) :=
      and_congr_ahead fun h => by
        have htwo : 2 ≤ tokens.length := le_length_of_isOperator tokens h
        rw [List.drop_append_of_le_length htwo, isGroup_append hrest]
    simp (disch := decide) only [pathProduction, isOperator_append hrest, hnext]
  | arguments style =>
    have hangle : (isOperator "::" tokens && isOperator "<" ((tokens ++ rest).drop 2)) =
        (isOperator "::" tokens && isOperator "<" (tokens.drop 2)) :=
      and_congr_ahead fun h => by
        have htwo : 2 ≤ tokens.length := le_length_of_isOperator tokens h
        rw [List.drop_append_of_le_length htwo, isOperator_append hrest _ _ (by decide)]
    have hgroup : (isOperator "::" tokens && isGroup .parenthesis ((tokens ++ rest).drop 2)) =
        (isOperator "::" tokens && isGroup .parenthesis (tokens.drop 2)) :=
      and_congr_ahead fun h => by
        have htwo : 2 ≤ tokens.length := le_length_of_isOperator tokens h
        rw [List.drop_append_of_le_length htwo, isGroup_append hrest]
    have hlist : (decide (style = .type) && isOperator "::" tokens && isGroup .parenthesis ((tokens ++ rest).drop 2)) =
        (decide (style = .type) && isOperator "::" tokens && isGroup .parenthesis (tokens.drop 2)) := by
      rw [Bool.and_assoc, Bool.and_assoc, hgroup]
    simp (disch := decide) only [pathProduction, isOperator_append hrest, isGroup_append hrest, hangle, hlist]
  | argument =>
    have hnext : (isLifetime tokens && !isOperator "+" ((tokens ++ rest).drop 2)) =
        (isLifetime tokens && !isOperator "+" (tokens.drop 2)) :=
      and_congr_ahead fun h => by
        rw [List.drop_append_of_le_length (le_length_of_isLifetime tokens h), isOperator_append hrest _ _ (by decide)]
    simp (disch := decide) only [pathProduction, isOperator_append hrest, isLifetime_append hrest,
      isLiteral_append hrest, isGroup_append hrest, hnext]
  | argumentValue | equated =>
    cases tokens with
    | nil => rcases hrest with rfl | ⟨spacing, more, rfl⟩ <;> rfl
    | cons token tokens =>
      have hdrop : (token :: tokens ++ rest).drop 1 = tokens ++ rest := rfl
      simp (disch := decide) only [pathProduction, isOperator_append hrest, hdrop, isNumber_append hrest,
        isLiteral_append hrest, isName_append hrest, isGroup_append hrest, List.drop_succ_cons, List.drop_zero]
  | _ =>
    simp (disch := decide) only [pathProduction, isOperator_append hrest, isWord_append hrest]

/-- No bound begins with a comma. -/
theorem startsBound_append (style : BoundStyle) : startsBound style (tokens ++ rest) = startsBound style tokens := by
  simp (disch := decide) only [startsBound, isIdent_append hrest, isLifetime_append hrest, isGroup_append hrest,
    isOperator_append hrest, isOperatorOf_append hrest]

/-- A list of bounds ends at a comma as it does at the end. -/
theorem endsBounds_append : endsBounds false (tokens ++ rest) = endsBounds false tokens := by
  cases tokens with
  | nil => rcases hrest with rfl | ⟨spacing, more, rfl⟩ <;> rfl
  | cons token tokens =>
    have hcomma : isOperator "," (token :: tokens ++ rest) = isOperator "," (token :: tokens) := by
      cases token <;> simp [isOperator, isSpelled]
    simp only [endsBounds, isOperatorOf, List.any_cons, List.any_nil, hcomma, isWord_append hrest, isGroup_append hrest,
      isOperator_append hrest _ ";" (by decide), isOperator_append hrest _ ">" (by decide),
      isOperator_append hrest _ "=" (by decide)]
    rfl

/-- It makes none for the parts of types. -/
theorem typeProduction_append {goal : TypeGoal} (hgoal : Goal.unbracketed (.type goal) = true) (found : Form) :
    typeProduction goal found (tokens ++ rest) = typeProduction goal found tokens := by
  cases goal with
  | type plus =>
    cases tokens with
    | nil => rcases hrest with rfl | ⟨spacing, more, rfl⟩ <;> rfl
    | cons token tokens =>
      have hdrop : (token :: tokens ++ rest).drop 1 = tokens ++ rest := rfl
      simp only [typeProduction, isGroup_append hrest, isWordOf_append hrest, isWord_append hrest, startsPath_append hrest,
        isLifetime_append hrest, hdrop, List.drop_succ_cons, List.drop_zero,
        isOperator_append hrest _ "*" (by decide), isOperator_append hrest _ "&" (by decide),
        isOperator_append hrest _ "!" (by decide)]
      by_cases hlifetime : isLifetime tokens = true
      · have hnext : (token :: tokens ++ rest).drop 3 = tokens.drop 2 ++ rest :=
          List.drop_append_of_le_length (Nat.succ_le_succ (le_length_of_isLifetime tokens hlifetime))
        simp only [hnext, isWord_append hrest]
      · simp only [hlifetime, Bool.false_eq_true, if_false]
  | named => simp only [typeProduction, isBang_append hrest]
  | anotherBound => simp only [typeProduction, startsBound_append hrest]
  | list | moreList | parenthesized | element | length | parameters | someParameters | parameter | moreParameters
  | optionalComma => cases hgoal
  | boundList aliased =>
    obtain rfl : aliased = false := (Bool.not_eq_true' aliased).mp hgoal
    simp only [typeProduction, endsBounds_append hrest]
  | moreBounds | moreBoundList => simp only [typeProduction, isOperator_append hrest _ "+" (by decide)]
  | constant => rfl
  | _ =>
    simp only [typeProduction, isWord_append hrest, isWordOf_append hrest, isName_append hrest, isGroup_append hrest,
      isLifetime_append hrest, isText_append hrest, isOperator_append hrest _ ">" (by decide),
      isOperator_append hrest _ "?" (by decide), isOperator_append hrest _ "->" (by decide),
      isOperator_append hrest _ "#" (by decide), isOperator_append hrest _ "~" (by decide)]

/-- A range pattern ends at a comma as it does at the end. -/
theorem endsPatternRange_append : endsPatternRange (tokens ++ rest) = endsPatternRange tokens := by
  cases tokens with
  | nil => rcases hrest with rfl | ⟨spacing, more, rfl⟩ <;> rfl
  | cons token tokens =>
    have hcomma : isOperator "," (token :: tokens ++ rest) = isOperator "," (token :: tokens) := by
      cases token <;> simp [isOperator, isSpelled]
    simp only [endsPatternRange, isOperatorOf, List.any_cons, List.any_nil, hcomma, isWord_append hrest,
      isOperator_append hrest _ "|" (by decide), isOperator_append hrest _ "=" (by decide),
      isOperator_append hrest _ ";" (by decide), isOperator_append hrest _ ":" (by decide),
      isOperator_append hrest _ "::" (by decide)]
    rfl

/-- No path begins with a comma in a pattern either. -/
theorem startsPathPattern_append : startsPathPattern (tokens ++ rest) = startsPathPattern tokens := by
  cases tokens with
  | nil => rcases hrest with rfl | ⟨spacing, more, rfl⟩ <;> rfl
  | cons token tokens =>
    have hdrop : (token :: tokens ++ rest).drop 1 = tokens ++ rest := rfl
    have hbehind : isOperatorOf ["::", "!", ".."] (tokens ++ rest) = isOperatorOf ["::", "!", ".."] tokens :=
      isOperatorOf_append hrest tokens (by decide)
    have hfirst : isOperatorOf ["::", "<"] (token :: tokens ++ rest) = isOperatorOf ["::", "<"] (token :: tokens) :=
      isOperatorOf_append hrest _ (by decide)
    simp only [startsPathPattern, hdrop, hbehind, hfirst, List.drop_succ_cons, List.drop_zero, isName_append hrest,
      isWord_append hrest, isWordOf_append hrest, isGroup_append hrest, isOperator_append hrest _ "::" (by decide)]

/-- It makes none for the parts of patterns. -/
theorem patternProduction_append {goal : PatternGoal} (hgoal : Goal.unbracketed (.pattern goal) = true) (found : Form) :
    patternProduction goal found (tokens ++ rest) = patternProduction goal found tokens := by
  cases goal with
  | list | moreList | slice | moreSlice | element | afterElement => cases hgoal
  | fields | someFields | field | fieldPattern | moreFields => cases hgoal
  | binding => simp only [patternProduction, isWord_append hrest]
  | named =>
    cases tokens with
    | nil => rcases hrest with rfl | ⟨spacing, more, rfl⟩ <;> rfl
    | cons token tokens =>
      have hdrop : (token :: tokens ++ rest).drop 1 = tokens ++ rest := rfl
      simp only [patternProduction, hdrop, List.drop_succ_cons, List.drop_zero, isWord_append hrest]
  | pattern => simp only [patternProduction, isOperator_append hrest _ "|" (by decide)]
  | alternatives => simp only [patternProduction, isBar_append hrest]
  | reference => simp only [patternProduction, isWord_append hrest]
  | optionalBound | rest => simp only [patternProduction, endsPatternRange_append hrest]
  | subpattern => simp only [patternProduction, isOperator_append hrest _ "@" (by decide)]
  | afterPath => simp only [patternProduction, isBang_append hrest, isGroup_append hrest]
  | bound =>
    have hpath := startsPath_append hrest tokens
    cases tokens with
    | nil => rcases hrest with rfl | ⟨spacing, more, rfl⟩ <;> rfl
    | cons token tokens =>
      have hdrop : (token :: tokens ++ rest).drop 1 = tokens ++ rest := rfl
      simp only [patternProduction, hpath, hdrop, List.drop_succ_cons, List.drop_zero, isNumber_append hrest,
        isLiteral_append hrest, isWord_append hrest, isOperator_append hrest _ "-" (by decide)]
  | single | afterBound =>
    simp only [patternProduction, startsPathPattern_append hrest, isWord_append hrest,
      isWordOf_append hrest, isName_append hrest, isLiteral_append hrest, isGroup_append hrest,
      isOperator_append hrest _ "-" (by decide), isOperator_append hrest _ "&" (by decide),
      isOperator_append hrest _ ".." (by decide), isOperator_append hrest _ "..=" (by decide),
      isOperator_append hrest _ "..." (by decide)]

/-- No binder holds a comma where its first tokens are, -/
theorem isBinder_append : isBinder (tokens ++ rest) = isBinder tokens := by
  cases tokens with
  | nil => rcases hrest with rfl | ⟨spacing, more, rfl⟩ <;> rfl
  | cons token tokens =>
    have hdrop : (token :: tokens ++ rest).drop 1 = tokens ++ rest := rfl
    have hnext : (isOperator "<" tokens &&
          (isLifetime ((token :: tokens ++ rest).drop 2) || isOperator ">" ((token :: tokens ++ rest).drop 2))) =
        (isOperator "<" tokens && (isLifetime (tokens.drop 1) || isOperator ">" (tokens.drop 1))) :=
      and_congr_ahead fun h => by
        have hbehind : (token :: tokens ++ rest).drop 2 = tokens.drop 1 ++ rest :=
          List.drop_append_of_le_length (Nat.succ_le_succ (le_length_of_isOperator tokens h))
        rw [hbehind, isLifetime_append hrest, isOperator_append hrest _ _ (by decide)]
    simp only [isBinder, Bool.and_assoc, hdrop, isWord_append hrest, isOperator_append hrest _ "<" (by decide), hnext,
      List.drop_succ_cons, List.drop_zero]

/-- no closure, -/
theorem startsClosure_append : startsClosure (tokens ++ rest) = startsClosure tokens := by
  have hbinder := isBinder_append hrest tokens
  cases tokens with
  | nil => rcases hrest with rfl | ⟨spacing, more, rfl⟩ <;> rfl
  | cons token tokens =>
    have hdrop : (token :: tokens ++ rest).drop 1 = tokens ++ rest := rfl
    simp only [startsClosure, hbinder, hdrop, List.drop_succ_cons, List.drop_zero, isWord_append hrest,
      isWordOf_append hrest, isGroup_append hrest, isOperator_append hrest _ "|" (by decide)]

/-- no asynchronous block, -/
theorem startsAsyncBlock_append : startsAsyncBlock (tokens ++ rest) = startsAsyncBlock tokens := by
  cases tokens with
  | nil => rcases hrest with rfl | ⟨spacing, more, rfl⟩ <;> rfl
  | cons token tokens =>
    have hdrop : (token :: tokens ++ rest).drop 1 = tokens ++ rest := rfl
    have hnext : (isWord "move" tokens && isGroup .brace ((token :: tokens ++ rest).drop 2)) =
        (isWord "move" tokens && isGroup .brace (tokens.drop 1)) :=
      and_congr_ahead fun h => by
        have hbehind : (token :: tokens ++ rest).drop 2 = tokens.drop 1 ++ rest :=
          List.drop_append_of_le_length (Nat.succ_le_succ (le_length_of_isWord tokens h))
        rw [hbehind, isGroup_append hrest]
    simp only [startsAsyncBlock, hdrop, List.drop_succ_cons, List.drop_zero, isWord_append hrest, isGroup_append hrest,
      hnext]

/-- and no operand. -/
theorem startsPathOperand_append : startsPathOperand (tokens ++ rest) = startsPathOperand tokens := by
  have hpath := startsPath_append hrest tokens
  cases tokens with
  | nil => rcases hrest with rfl | ⟨spacing, more, rfl⟩ <;> rfl
  | cons token tokens =>
    have hdrop : (token :: tokens ++ rest).drop 1 = tokens ++ rest := rfl
    simp only [startsPathOperand, hpath, hdrop, List.drop_succ_cons, List.drop_zero, isWord_append hrest,
      isOperator_append hrest _ "!" (by decide), isOperator_append hrest _ "::" (by decide)]

/-- No attribute ends with a comma, nor does a range begin with one. -/
theorem isTaggedRange_append : isTaggedRange (tokens ++ rest) = isTaggedRange tokens := by
  cases tokens with
  | nil => rcases hrest with rfl | ⟨spacing, more, rfl⟩ <;> rfl
  | cons token tokens =>
    have hdrop : (token :: tokens ++ rest).drop 1 = tokens ++ rest := rfl
    have hnext : (isGroup .bracket tokens && isOperator ".." ((token :: tokens ++ rest).drop 2)) =
        (isGroup .bracket tokens && isOperator ".." (tokens.drop 1)) :=
      and_congr_ahead fun h => by
        have hbehind : (token :: tokens ++ rest).drop 2 = tokens.drop 1 ++ rest :=
          List.drop_append_of_le_length (Nat.succ_le_succ (le_length_of_isGroup tokens h))
        rw [hbehind, isOperator_append hrest _ _ (by decide)]
    simp only [isTaggedRange, Bool.and_assoc, hdrop, isGroup_append hrest, isOperator_append hrest _ "#" (by decide), hnext,
      List.drop_succ_cons, List.drop_zero]

/-- No expression begins with a comma, -/
theorem startsExpression_append : startsExpression (tokens ++ rest) = startsExpression tokens := by
  simp (disch := decide) only [startsExpression, isIdent_append hrest, isWord_append hrest, isTree_append hrest,
    isLiteral_append hrest, isLifetime_append hrest, isOperatorOf_append hrest, isOperator_append hrest]

/-- and no operator is one, -/
theorem binaryOperator?_append : binaryOperator? (tokens ++ rest) = binaryOperator? tokens := by
  have hall : ∀ entry ∈ binaryOperators, ',' ∉ entry.1.toList := by decide
  unfold binaryOperator?
  exact List.find?_congr fun entry hm => isOperator_append hrest tokens _ (hall entry hm)

/-- nor an assignment. -/
theorem isAssignment_append : isAssignment (tokens ++ rest) = isAssignment tokens := by
  simp (disch := decide) only [isAssignment, isOperator_append hrest]

/-- So a comma binds as weakly as the end. -/
theorem precedenceAhead_append : precedenceAhead (tokens ++ rest) = precedenceAhead tokens := by
  simp only [precedenceAhead, binaryOperator?_append hrest, isAssignment_append hrest,
    isOperator_append hrest _ ".." (by decide), isWord_append hrest]

/-- A range ends at a comma as it does at the end. -/
theorem endsRange_append (struct : Bool) : endsRange struct (tokens ++ rest) = endsRange struct tokens := by
  cases tokens with
  | nil =>
    rcases hrest with rfl | ⟨spacing, more, rfl⟩
    · rfl
    · simp [endsRange, isOperatorOf, isOperator, isSpelled]
  | cons token tokens =>
    have hcomma : isOperator "," (token :: tokens ++ rest) = isOperator "," (token :: tokens) := by
      cases token <;> simp [isOperator, isSpelled]
    have hothers := isOperatorOf_append hrest (token :: tokens)
      (show ∀ text ∈ [";", "?", "=>", "=", "+", "/", "%", "^", ">", "<=", "!=", "-=", "*=", "&=", "|=", "<<="],
        ',' ∉ text.toList by decide)
    rw [isOperatorOf, isOperatorOf] at hothers
    simp only [endsRange, isOperatorOf, List.any_cons (a := ","), hcomma, hothers, isDot_append hrest,
      isGroup_append hrest, isWord_append hrest]
    rfl

/-- Words are ahead or not, whether a comma stands behind them or nothing. -/
theorem wordsAhead_append (texts : List String) : wordsAhead texts (tokens ++ rest) = wordsAhead texts tokens := by
  induction texts generalizing tokens with
  | nil => rfl
  | cons text texts ih =>
    rw [wordsAhead, wordsAhead, isWord_append hrest, ih]
    split
    · rename_i hword
      rw [List.drop_append_of_le_length (le_length_of_isWord tokens hword), ih]
    · rfl

/-- It makes no difference for operands, -/
theorem atomProduction_append (struct : Bool) : atomProduction struct (tokens ++ rest) = atomProduction struct tokens := by
  have hasync := startsAsyncBlock_append hrest tokens
  have hclosure := startsClosure_append hrest tokens
  have hpath := startsPathOperand_append hrest tokens
  cases tokens with
  | nil => rcases hrest with rfl | ⟨spacing, more, rfl⟩ <;> rfl
  | cons token tokens =>
    have hdrop : (token :: tokens ++ rest).drop 1 = tokens ++ rest := rfl
    simp only [atomProduction, hasync, hclosure, hpath, hdrop, List.drop_succ_cons, List.drop_zero, isLiteral_append hrest,
      isLifetime_append hrest, isWord_append hrest, isWordOf_append hrest, isGroup_append hrest,
      isOperator_append hrest _ "..=" (by decide), isOperator_append hrest _ ".." (by decide),
      isOperator_append hrest _ "..." (by decide), isOperator_append hrest _ "#" (by decide)]
    by_cases hlifetime : isLifetime tokens = true
    · have hnext : (token :: tokens ++ rest).drop 3 = tokens.drop 2 ++ rest :=
        List.drop_append_of_le_length (Nat.succ_le_succ (le_length_of_isLifetime tokens hlifetime))
      simp only [hnext, isOperator_append hrest _ ":" (by decide)]
    · simp only [hlifetime, Bool.false_eq_true, if_false]

/-- for operators, -/
theorem operatorProduction_append (floor : Precedence) (struct : Bool) (found : Form) :
    operatorProduction floor struct found (tokens ++ rest) = operatorProduction floor struct found tokens := by
  simp only [operatorProduction, binaryOperator?_append hrest, isAssignment_append hrest, isWord_append hrest,
    isOperator_append hrest _ "..=" (by decide), isOperator_append hrest _ ".." (by decide),
    isOperator_append hrest _ "..." (by decide)]

/-- and so for the parts of expressions. -/
theorem valueProduction_append {goal : ValueGoal} (hgoal : Goal.unbracketed (.value goal) = true) (found : Form) :
    valueProduction goal found (tokens ++ rest) = valueProduction goal found tokens := by
  cases goal with
  | list | moreList | array | afterElement | fields | field | fieldValue | moreFields | rest => cases hgoal
  | expression | conditional => rfl
  | atom struct => exact atomProduction_append hrest tokens struct
  | operators floor struct => exact operatorProduction_append hrest tokens floor struct found
  | climb => simp only [valueProduction, precedenceAhead_append hrest]
  | rangeEnd => simp only [valueProduction, endsRange_append hrest]
  | breakValue | optionalValue => simp only [valueProduction, startsExpression_append hrest, isGroup_append hrest]
  | closureInputs => simp only [valueProduction, closureWords, wordsAhead_append hrest]
  | afterCast | trailers =>
    simp only [valueProduction, isDot_append hrest, isGroup_append hrest, isOperator_append hrest _ "?" (by decide)]
  | operand struct =>
    have htagged := isTaggedRange_append hrest tokens
    cases tokens with
    | nil => rcases hrest with rfl | ⟨spacing, more, rfl⟩ <;> rfl
    | cons token tokens =>
      have hdrop : (token :: tokens ++ rest).drop 1 = tokens ++ rest := rfl
      have hnext : ∀ text, (isWord "raw" tokens && isWord text ((token :: tokens ++ rest).drop 2)) =
          (isWord "raw" tokens && isWord text (tokens.drop 1)) := fun text =>
        and_congr_ahead fun h => by
          have hbehind : (token :: tokens ++ rest).drop 2 = tokens.drop 1 ++ rest :=
            List.drop_append_of_le_length (Nat.succ_le_succ (le_length_of_isWord tokens h))
          rw [hbehind, isWord_append hrest]
      simp only [valueProduction, htagged, hdrop, hnext, List.drop_succ_cons, List.drop_zero, isWord_append hrest,
        isOperator_append hrest _ "#" (by decide), isOperator_append hrest _ "&" (by decide),
        isOperator_append hrest _ "*" (by decide), isOperator_append hrest _ "!" (by decide),
        isOperator_append hrest _ "-" (by decide)]
  | member path =>
    cases tokens with
    | nil => rcases hrest with rfl | ⟨spacing, more, rfl⟩ <;> rfl
    | cons token tokens => cases token <;> rfl
  | afterPath struct =>
    cases tokens with
    | nil => rcases hrest with rfl | ⟨spacing, more, rfl⟩ <;> cases struct <;> cases found <;> rfl
    | cons token tokens =>
      have hdrop : (token :: tokens ++ rest).drop 1 = tokens ++ rest := rfl
      simp only [valueProduction, hdrop, List.drop_succ_cons, List.drop_zero, isBang_append hrest, isGroup_append hrest]
  | otherwise =>
    cases tokens with
    | nil => rcases hrest with rfl | ⟨spacing, more, rfl⟩ <;> rfl
    | cons token tokens =>
      have hdrop : (token :: tokens ++ rest).drop 1 = tokens ++ rest := rfl
      simp only [valueProduction, hdrop, List.drop_succ_cons, List.drop_zero, isWord_append hrest]
  | _ =>
    simp only [valueProduction, isWord_append hrest, isGroup_append hrest, isLifetime_append hrest,
      isOperator_append hrest _ "::" (by decide), isOperator_append hrest _ "|" (by decide),
      isOperator_append hrest _ "#" (by decide), isOperator_append hrest _ "->" (by decide)]

/-- Outside of brackets it makes no difference for a production whether a comma is ahead or nothing. -/
theorem production_append {goal : Goal} (hgoal : goal.unbracketed = true) (found : Form) :
    goal.production found (tokens ++ rest) = goal.production found tokens := by
  cases goal with
  | path goal => exact pathProduction_append hrest tokens goal
  | type goal => exact typeProduction_append hrest tokens hgoal found
  | pattern goal => exact patternProduction_append hrest tokens hgoal found
  | value goal => exact valueProduction_append hrest tokens hgoal found
  | item goal => cases hgoal
  | statement goal =>
    obtain rfl : goal = .ascription := of_decide_eq_true hgoal
    simp only [Goal.production, statementProduction, isOperator_append hrest _ ":" (by decide)]

end

variable {leftovers : Leftovers} {symbols : List Symbol} {found last : Form} {tokens rest taken left : List Token}

/-- What stands for a goal outside of brackets stands there too. -/
theorem all_unbracketed_production {goal : Goal} {production : List Symbol} (hgoal : goal.unbracketed = true)
    (h : goal.production found tokens = some production) : production.all Symbol.unbracketed = true := by
  have hall := all_fits_production found tokens goal
  rw [h, Option.all_some, Goal.fits, hgoal, Bool.not_true, Bool.false_or, Bool.and_eq_true, Bool.and_eq_true] at hall
  exact hall.1.2

/-- What is read up to the end is also read in front of a comma, which is left over. -/
theorem Reads.append (hrest : EndsExpression rest) (h : Reads leftovers symbols found tokens taken last left)
    (hsymbols : symbols.all Symbol.unbracketed = true) :
    Reads leftovers symbols found (tokens ++ rest) taken last (left ++ rest) := by
  induction h with
  | nil => exact .nil
  | form _ ih => exact .form (ih hsymbols)
  | @goal goal production symbols found last tokens taken left hp _ ih =>
    rw [List.all_cons, Bool.and_eq_true] at hsymbols
    obtain ⟨hgoal, hsymbols⟩ := hsymbols
    refine .goal ((production_append hrest tokens hgoal found).trans hp) (ih ?_)
    rw [List.all_append, all_unbracketed_production hgoal hp, hsymbols, Bool.and_self]
  | group hinner hleft _ _ ih => exact .group hinner hleft (ih hsymbols)
  | terminal ht _ ih =>
    rw [List.all_cons, Bool.and_eq_true] at hsymbols
    obtain ⟨used, rfl, hmore⟩ := exists_used_of_takeTerminal? ht
    rw [List.append_assoc]
    exact .terminal (hmore _) (ih hsymbols.2)

/-- What is read in front of a comma is also read if nothing stands in its place. -/
theorem Reads.of_append (hrest : EndsExpression rest)
    (h : Reads leftovers symbols found (tokens ++ rest) taken last (left ++ rest))
    (hsymbols : symbols.all Symbol.unbracketed = true) : Reads leftovers symbols found tokens taken last left := by
  generalize hall : tokens ++ rest = all at h
  generalize hend : left ++ rest = behind at h
  induction h generalizing tokens with
  | nil =>
    obtain rfl := List.append_cancel_right (hall.trans hend.symm)
    exact .nil
  | form _ ih => exact .form (ih hsymbols hall hend)
  | @goal goal production symbols found last all taken behind hp _ ih =>
    rw [List.all_cons, Bool.and_eq_true] at hsymbols
    obtain ⟨hgoal, hsymbols⟩ := hsymbols
    rw [← hall, production_append hrest tokens hgoal found] at hp
    refine .goal hp (ih ?_ hall hend)
    rw [List.all_append, all_unbracketed_production hgoal hp, hsymbols, Bool.and_self]
  | @group delimiter goal symbols found _ _ body _ _ between _ _ hinner hleft hreads _ ih =>
    -- the comma stands behind what is left, and so behind the group
    obtain ⟨passed, rfl⟩ := hreads.left_suffix
    rw [← hend, ← List.append_assoc, ← List.cons_append] at hall
    obtain rfl := List.append_cancel_right hall
    exact .group hinner hleft (ih hsymbols (by rw [List.append_assoc, hend]) hend)
  | terminal ht hreads ih =>
    rw [List.all_cons, Bool.and_eq_true] at hsymbols
    obtain ⟨passed, rfl⟩ := hreads.left_suffix
    obtain ⟨used, rfl, hmore⟩ := exists_used_of_takeTerminal? ht
    rw [← hend, ← List.append_assoc, ← List.append_assoc] at hall
    obtain rfl := List.append_cancel_right hall
    rw [List.append_assoc]
    exact .terminal (hmore _) (ih hsymbols.2 (by rw [List.append_assoc, hend]) hend)

/-- An expression is read up to a comma exactly if it is read where nothing stands in its place. -/
theorem readFrom_append (hrest : EndsExpression rest) :
    readFrom leftovers (tokens ++ rest) = some (taken, left ++ rest) ↔ readFrom leftovers tokens = some (taken, left) := by
  rw [readFrom_eq_some_iff, readFrom_eq_some_iff]
  exact exists_congr fun last => ⟨fun h => h.of_append hrest rfl, fun h => h.append hrest rfl⟩

end PrivateLog.Expression
