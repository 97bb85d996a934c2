import PrivateLog.Proofs.Expression.Enough

/-!
# A word and a colon begin no expression

No expression begins with an identifier and a single colon: a label of a placeholder is never the beginning of what the
placeholder holds (`ofTokens?_ident_colon`). Reading comes to the colon and stands still there. Which goals it may then be at
is settled by the grammar alone: `stalls` holds of the symbols that take nothing from a colon, `advances` of those that
take the identifier in front of it and leave such symbols. Both are kept when a goal is replaced by its production, so
that reading gets no further than the colon (`Reads.left_of_stalls`, `Reads.left_of_advances`).
-/

namespace PrivateLog.Expression

/-- A colon that is ahead is the first token, and no other follows it closely. -/
theorem exists_of_isColon {tokens : List Token} (h : isColon tokens = true) :
    ∃ spacing rest, tokens = .punct ':' spacing :: rest ∧ isOperator "::" (.punct ':' spacing :: rest) = false := by
  rw [isColon, Bool.and_eq_true, Bool.not_eq_true'] at h
  obtain ⟨hone, htwo⟩ := h
  cases tokens with
  | nil => simp [isOperator, isSpelled] at hone
  | cons token rest =>
    cases token with
    | punct symbol spacing =>
      obtain rfl : ':' = symbol := by simpa [isOperator, isSpelled] using hone
      exact ⟨spacing, rest, rfl, htwo⟩
    | _ => simp [isOperator, isSpelled] at hone

/-! ## Standing still at a colon -/

/-- Whether a goal takes nothing from a colon. -/
def Goal.stalls : Goal → Bool
  | .value (.expression _) => true
  | .value (.operand _) => true
  | .value (.operators _ _) => true
  | .value (.atom _) => true
  | .value .trailers => true
  | .value (.afterPath _) => true
  | .value (.breakValue _) => true
  | .value .optionalValue => true
  | .value .optionalLifetime => true
  | .pattern .pattern => true
  | .pattern .single => true
  | .pattern .alternatives => true
  | .path (.arguments .value) => true
  | .path (.moreSegments .value) => true
  | _ => false

/-- Whether symbols take nothing from a colon: a terminal does not fit it, so that what is behind the first one does not
matter. -/
def stalls : List Symbol → Bool
  | [] => true
  | .form _ :: symbols => stalls symbols
  | .goal goal :: symbols => goal.stalls && stalls symbols
  | .operator text :: _ => text.toList.head?.any (· != ':')
  | _ :: _ => true

/-- Symbols that stand still one behind the other stand still together. -/
theorem stalls_append {a b : List Symbol} (ha : stalls a = true) (hb : stalls b = true) : stalls (a ++ b) = true := by
  induction a with
  | nil => exact hb
  | cons symbol a ih =>
    cases symbol with
    | form found => exact ih ha
    | goal goal =>
      rw [stalls, Bool.and_eq_true] at ha
      rw [List.cons_append, stalls, ha.1, Bool.true_and]
      exact ih ha.2
    | operator text => exact ha
    | _ => rfl

section
variable {tokens : List Token}

/-- Nothing that is an operand begins with a colon. -/
theorem atomProduction_of_isColon (h : isColon tokens = true) (struct : Bool) : atomProduction struct tokens = none := by
  obtain ⟨spacing, rest, rfl, htwo⟩ := exists_of_isColon h
  simp only [atomProduction, startsPathOperand, startsPath, isOperatorOf, List.any_cons, htwo]
  simp [isLiteral, startsAsyncBlock, isWord, startsClosure, isWordOf, isBinder, isName, isGroup, isLifetime, isOperator,
    isSpelled]

/-- Nor does a pattern. -/
theorem single_of_isColon (h : isColon tokens = true) (found : Form) : patternProduction .single found tokens = none := by
  obtain ⟨spacing, rest, rfl, htwo⟩ := exists_of_isColon h
  simp only [patternProduction, startsPathPattern, isOperatorOf, List.any_cons, htwo]
  simp [isLiteral, isWord, isWordOf, isName, isGroup, isOperator, isSpelled]

/-- A colon is no operator between two operands. -/
theorem operatorProduction_of_isColon (h : isColon tokens = true) (floor : Precedence) (struct : Bool) (found : Form) :
    operatorProduction floor struct found tokens = some [] := by
  obtain ⟨spacing, rest, rfl, -⟩ := exists_of_isColon h
  have hbinary : binaryOperator? (.punct ':' spacing :: rest) = none := by
    simp [binaryOperator?, binaryOperators, isOperator, isSpelled]
  simp [operatorProduction, hbinary, isAssignment, isWord, isOperator, isSpelled]

/-- A value does not begin with it. -/
theorem startsExpression_of_isColon (h : isColon tokens = true) : startsExpression tokens = false := by
  obtain ⟨spacing, rest, rfl, htwo⟩ := exists_of_isColon h
  simp only [startsExpression, isOperatorOf, List.any_cons, htwo]
  simp [isIdent, isTree, isLiteral, isLifetime, isOperator, isSpelled]

/-- What stands for a goal that stands still stands still itself. -/
theorem stalls_of_production (h : isColon tokens = true) {goal : Goal} (hgoal : goal.stalls = true) {found : Form}
    {production : List Symbol} (hp : goal.production found tokens = some production) : stalls production = true := by
  have hatom := atomProduction_of_isColon h
  have hsingle := single_of_isColon h
  have hoperators := operatorProduction_of_isColon h
  have hvalue := startsExpression_of_isColon h
  obtain ⟨spacing, rest, rfl, htwo⟩ := exists_of_isColon h
  cases goal with
  | value goal =>
    cases goal with
    | expression struct =>
      cases hp
      rfl
    | operand struct =>
      obtain rfl : [Symbol.value (.atom struct), Symbol.value .trailers] = production := by
        simpa [Goal.production, valueProduction, isTaggedRange, isOperator, isSpelled] using hp
      rfl
    | operators floor struct =>
      obtain rfl : [] = production := by simpa [Goal.production, valueProduction, hoperators] using hp
      rfl
    | atom struct => simp [Goal.production, valueProduction, hatom] at hp
    | trailers =>
      obtain rfl : [] = production := by
        simpa [Goal.production, valueProduction, isGroup, isDot, isOperator, isSpelled] using hp
      rfl
    | afterPath struct =>
      obtain rfl : [Symbol.form .plain] = production := by
        simpa [Goal.production, valueProduction, isGroup, isBang, isOperator, isSpelled] using hp
      rfl
    | breakValue struct =>
      obtain rfl : [] = production := by simpa [Goal.production, valueProduction, hvalue] using hp
      rfl
    | optionalValue =>
      obtain rfl : [] = production := by simpa [Goal.production, valueProduction, hvalue] using hp
      rfl
    | optionalLifetime =>
      obtain rfl : [] = production := by simpa [Goal.production, valueProduction, isLifetime] using hp
      rfl
    | _ => cases hgoal
  | pattern goal =>
    cases goal with
    | pattern =>
      obtain rfl : [Symbol.pattern .single, Symbol.pattern .alternatives] = production := by
        simpa [Goal.production, patternProduction, isOperator, isSpelled] using hp
      rfl
    | single => simp [Goal.production, hsingle] at hp
    | alternatives =>
      obtain rfl : [] = production := by
        simpa [Goal.production, patternProduction, isBar, isOperator, isSpelled] using hp
      rfl
    | _ => cases hgoal
  | path goal =>
    cases goal with
    | arguments style =>
      cases style with
      | value =>
        obtain rfl : [] = production := by simpa [Goal.production, pathProduction, htwo] using hp
        rfl
      | type => cases hgoal
    | moreSegments style =>
      cases style with
      | value =>
        obtain rfl : [] = production := by simpa [Goal.production, pathProduction, htwo] using hp
        rfl
      | type => cases hgoal
    | _ => cases hgoal
  | _ => cases hgoal

/-- No terminal that stands still fits a colon. -/
theorem takeTerminal?_of_isColon (h : isColon tokens = true) {symbol : Symbol} {symbols : List Symbol}
    (hs : stalls (symbol :: symbols) = true) : takeTerminal? symbol tokens = none := by
  obtain ⟨spacing, rest, rfl, -⟩ := exists_of_isColon h
  cases symbol with
  | operator text =>
    rw [stalls] at hs
    cases htext : text.toList with
    | nil => simp [htext] at hs
    | cons c cs =>
      have hc : c ≠ ':' := by simpa [htext] using hs
      simp [takeTerminal?, isOperator, htext, isSpelled, hc]
  | lifetime => cases rest <;> simp [takeTerminal?, isLifetime]
  | _ => rfl

/-- From symbols that stand still reading goes no further than the colon. -/
theorem Reads.left_of_stalls {leftovers : Leftovers} {symbols : List Symbol} {found last : Form} {taken left : List Token}
    (hreads : Reads leftovers symbols found tokens taken last left) (h : isColon tokens = true)
    (hs : stalls symbols = true) : left = tokens := by
  induction hreads with
  | nil => rfl
  | form _ ih => exact ih h hs
  | goal hp _ ih =>
    rw [stalls, Bool.and_eq_true] at hs
    exact ih h (stalls_append (stalls_of_production h hs.1 hp) hs.2)
  | group =>
    obtain ⟨spacing, rest, heq, -⟩ := exists_of_isColon h
    cases heq
  | terminal ht =>
    rw [takeTerminal?_of_isColon h hs] at ht
    cases ht

end

/-! ## Taking an identifier in front of a colon -/

/-- Whether a goal takes an identifier. -/
def Goal.advances : Goal → Bool
  | .value (.expression _) => true
  | .value (.operand _) => true
  | .value (.atom _) => true
  | .value .labelled => true
  | .value .conditional => true
  | .value (.closure _) | .value (.closureInputs _) => true
  | .path (.path .value) => true
  | .path (.segments .value) => true
  | .path (.segment .value) => true
  | _ => false

/-- Whether symbols take an identifier and then stand still, or do not fit it at all. -/
def advances : List Symbol → Bool
  | [] => false
  | .form _ :: symbols => advances symbols
  | .goal goal :: symbols => goal.advances && stalls symbols
  | .word _ :: symbols => stalls symbols
  | .name :: symbols => stalls symbols
  | .literal :: symbols => stalls symbols
  | .operator text :: _ => text ≠ ""
  | _ :: _ => true

/-- Symbols that take an identifier may be followed by others that stand still. -/
theorem advances_append {a b : List Symbol} (ha : advances a = true) (hb : stalls b = true) :
    advances (a ++ b) = true := by
  induction a with
  | nil => cases ha
  | cons symbol a ih =>
    cases symbol with
    | form found => exact ih ha
    | goal goal =>
      rw [advances, Bool.and_eq_true] at ha
      rw [List.cons_append, advances, ha.1, Bool.true_and]
      exact stalls_append ha.2 hb
    | word _ | name | literal => exact stalls_append ha hb
    | operator text => exact ha
    | _ => rfl

/-- Whatever an operand is, it takes an identifier. -/
theorem all_advances_atomProduction (struct : Bool) (tokens : List Token) :
    (atomProduction struct tokens).all advances = true := by
  unfold atomProduction
  repeat' apply all_ite
  all_goals rfl

/-- The words in front of a closure stand before a bar. -/
theorem advances_wordsAhead (texts : List String) (tokens : List Token) (symbols : List Symbol) :
    advances (wordsAhead texts tokens ++ .operator "|" :: symbols) = true ∧
      stalls (wordsAhead texts tokens ++ .operator "|" :: symbols) = true := by
  induction texts generalizing tokens with
  | nil => exact ⟨rfl, rfl⟩
  | cons text texts ih =>
    rw [wordsAhead]
    split
    · exact ⟨(ih _).2, rfl⟩
    · exact ih tokens

/-- What stands for a goal that takes an identifier takes it itself. -/
theorem all_advances_production {goal : Goal} (hgoal : goal.advances = true) (found : Form) (tokens : List Token) :
    (goal.production found tokens).all advances = true := by
  cases goal with
  | value goal =>
    cases goal with
    | expression struct => rfl
    | operand struct =>
      rw [Goal.production, valueProduction]
      repeat' apply all_ite
      all_goals rfl
    | atom struct => exact all_advances_atomProduction struct tokens
    | labelled =>
      rw [Goal.production, valueProduction]
      repeat' apply all_ite
      all_goals rfl
    | conditional => rfl
    | closure struct =>
      rw [Goal.production, valueProduction]
      exact all_ite rfl rfl
    | closureInputs struct => exact (advances_wordsAhead _ tokens _).1
    | _ => cases hgoal
  | path goal =>
    cases goal with
    | path style =>
      cases style with
      | value =>
        rw [Goal.production, pathProduction]
        repeat' apply all_ite
        all_goals rfl
      | type => cases hgoal
    | segments style =>
      cases style with
      | value => rfl
      | type => cases hgoal
    | segment style =>
      cases style with
      | value =>
        cases tokens with
        | nil => rfl
        | cons token tokens =>
          cases token with
          | ident text =>
            rw [Goal.production, pathProduction]
            repeat' apply all_ite
            all_goals rfl
          | _ => rfl
      | type => cases hgoal
    | _ => cases hgoal
  | _ => cases hgoal

/-- A terminal takes no more than the identifier. -/
theorem takeTerminal?_ident {name : String} {rest : List Token} {symbol : Symbol} {symbols : List Symbol}
    (hs : advances (symbol :: symbols) = true) {taken left : List Token}
    (ht : takeTerminal? symbol (.ident name :: rest) = some (taken, left)) : left = rest ∧ stalls symbols = true := by
  cases takeTerminal?_eq_some_iff.1 ht with
  | @operator text _ hoperator =>
    have hne : text.toList ≠ [] := by simpa [advances] using hs
    obtain ⟨c, cs, htext⟩ := List.exists_cons_of_ne_nil hne
    simp [isOperator, htext, isSpelled] at hoperator
  | word | name | literal => exact ⟨rfl, hs⟩

/-- From symbols that take an identifier reading goes no further than the colon behind it. -/
theorem Reads.left_of_advances {leftovers : Leftovers} {symbols : List Symbol} {found last : Form}
    {tokens taken left rest : List Token} {name : String} (hreads : Reads leftovers symbols found tokens taken last left)
    (htokens : tokens = .ident name :: rest) (h : isColon rest = true) (hs : advances symbols = true) : left = rest := by
  induction hreads with
  | nil => cases hs
  | form _ ih => exact ih htokens hs
  | @goal goal production symbols found last tokens taken left hp _ ih =>
    rw [advances, Bool.and_eq_true] at hs
    have hall := all_advances_production hs.1 found tokens
    rw [hp, Option.all_some] at hall
    exact ih htokens (advances_append hall hs.2)
  | group => cases htokens
  | terminal ht hrest =>
    -- A terminal takes the identifier, and from the colon on the symbols behind it stand still.
    subst htokens
    obtain ⟨rfl, hs⟩ := takeTerminal?_ident hs ht
    exact hrest.left_of_stalls h hs

/-- An identifier and a single colon are the beginning of no expression. -/
theorem ofTokens?_ident_colon {name : String} {rest : List Token} (h : isColon rest = true) :
    ofTokens? (.ident name :: rest) = none := by
  refine Option.eq_none_iff_forall_ne_some.2 fun expression hexpression => ?_
  obtain ⟨_, hreads⟩ := ofTokens?_eq_some_iff.1 hexpression
  obtain rfl := hreads.left_of_advances rfl h rfl
  cases h

end PrivateLog.Expression
