import PrivateLog.Expression.Reader

/-!
# What productions consist of

What is true of every production of the grammar, whatever the tokens ahead are (`all_fits_production`). The operators in
it are written with punctuation other than an apostrophe. The productions of a goal that stands outside of brackets hold
only such goals, apart from what they put in brackets. And each goal has a cost: it is more than that of any of its
productions, where a token that is taken pays for 256 steps. Goals that take a token for certain have some of it left,
so their cost is negative. The exception is `climb`, which goes on with an operator that is ahead, and only this operator
pays for it.
-/

namespace PrivateLog.Expression

/-- A choice between two productions passes a test if both do. -/
theorem all_ite {c : Prop} [Decidable c] {test : List Symbol → Bool} {a b : Option (List Symbol)}
    (ha : a.all test = true) (hb : b.all test = true) : (if c then a else b).all test = true := by
  by_cases hc : c
  · rwa [if_pos hc]
  · rwa [if_neg hc]

/-! ## Outside of brackets -/

/-- Whether a goal stands outside of brackets; those that stand inside ask for the end of the group. -/
def Goal.unbracketed : Goal → Bool
  | .path _ => true
  | .type goal =>
    match goal with
    | .list | .moreList | .parenthesized | .element | .length => false
    | .parameters _ | .someParameters _ | .parameter _ | .moreParameters | .optionalComma => false
    | .boundList aliased | .moreBoundList aliased => !aliased
    | _ => true
  | .pattern goal =>
    match goal with
    | .list | .moreList | .slice | .moreSlice | .element | .afterElement => false
    | .fields | .someFields | .field | .fieldPattern | .moreFields => false
    | _ => true
  | .statement goal => goal = .ascription
  | .item _ => false
  | .value goal =>
    match goal with
    | .list | .moreList | .array | .afterElement | .fields | .field | .fieldValue | .moreFields | .rest => false
    | _ => true

/-- Whether a symbol stands outside of brackets. -/
def Symbol.unbracketed : Symbol → Bool
  | .goal part => part.unbracketed
  | _ => true

/-! ## Operators -/

/-- Whether a symbol is spelt with punctuation, if it is an operator; an apostrophe is none of an operator. -/
def Symbol.isSpelt : Symbol → Bool
  | .operator text => text ≠ "" && text.toList.all (· ≠ '\'')
  | _ => true

/-- An operator between two operands is spelt with punctuation. -/
theorem isSpelt_of_binaryOperator? {tokens : List Token} {text : String} {precedence : Precedence}
    (h : binaryOperator? tokens = some (text, precedence)) : Symbol.isSpelt (.operator text) = true := by
  have hall : ∀ entry ∈ binaryOperators, Symbol.isSpelt (.operator entry.1) = true := by
    decide
  exact hall _ (List.mem_of_find?_eq_some h)

/-! ## Costs -/

/-- The cost of a part of a path. -/
def PathGoal.cost : PathGoal → Int
  | .segment _ | .argumentValue | .name => -240
  | .names => -230
  | .segments _ => -235
  | .path _ => -230
  | .argument => -190
  | _ => 1

/-- The cost of a part of a type. -/
def TypeGoal.cost : TypeGoal → Int
  | .linked | .lifetimeParameter | .capture | .constant => -240
  | .function | .optionalTrait => -225
  | .signedTrait => -220
  | .constantTrait _ => -215
  | .trait _ => -210
  | .single _ => -205
  | .bounds _ _ | .bindable _ => -202
  | .type _ => -200
  | .element | .parameter _ => -190
  | .someParameters _ => -180
  | .named _ | .parenthesized => 2
  | _ => 1

/-- The cost of a part of a pattern. -/
def PatternGoal.cost : PatternGoal → Int
  | .binding | .field => -240
  | .named => -230
  | .bound => -220
  | .single => -210
  | .pattern | .reference => -200
  | .element => -195
  | .someFields => -180
  | .afterPath | .optionalBound => 2
  | .afterElement => 3
  | _ => 1

/-- The cost of a part of a block. -/
def StatementGoal.cost : StatementGoal → Int
  | .tag => -220
  | .early => -190
  | .arm => -180
  | .statement => -150
  | .statementEnd | .body | .armEnd => 2
  | .matched => 2
  | .afterEarly => 3
  | _ => 1

/-- The cost of a part of an item. -/
def ItemGoal.cost : ItemGoal → Int
  | .selfName | .parameter | .fieldName | .rename | .restriction => -240
  | .header | .borrowed | .importTree _ | .crateName | .moduleName | .macroTokens => -230
  | .callee | .receiver | .importRoot | .macroName => -220
  | .safety _ | .implementation | .macroBody | .macroRule | .static | .constant | .foreignStatic | .trait _ => -210
  | .signature _ | .moduleEnd | .structEnd | .ending | .staticType | .staticValue | .constantType => -200
  | .linked _ | .structFields | .typeEnd _ | .traitEnd _ | .implementationBody => -190
  | .bounded | .namedField | .unnamedField | .variant | .fieldType | .implementationType | .inputType => -180
  | .predicate | .associated _ _ | .someInputs _ | .implementationTarget => -170
  | .implementationFor => -180
  | .declaration _ _ => -160
  | .item _ => -155
  | .body _ => 2
  | _ => 1

/-- The cost of a part of an expression. -/
def ValueGoal.cost : ValueGoal → Int
  | .closureInputs _ | .labelled | .conditional | .member _ | .field => -240
  | .closure _ => -230
  | .atom _ => -220
  | .operand _ => -210
  | .expression _ | .input => -200
  | .afterPath _ | .afterElement | .otherwise => 2
  | _ => 1

/-- The cost of a goal. -/
def Goal.cost : Goal → Int
  | .path goal => goal.cost
  | .type goal => goal.cost
  | .pattern goal => goal.cost
  | .statement goal => goal.cost
  | .value goal => goal.cost
  | .item goal => goal.cost

/-- The cost of a symbol: a terminal and the brackets of a group pay for 256 steps, and take one. -/
def Symbol.cost : Symbol → Int
  | .goal part => part.cost
  | .form _ => 1
  | .group _ inside => inside.cost - 255
  | _ => -255

/-- The cost of symbols. -/
def cost : List Symbol → Int
  | [] => 0
  | symbol :: symbols => symbol.cost + cost symbols

/-- Symbols in a row cost as much as they do one by one. -/
theorem cost_append (a b : List Symbol) : cost (a ++ b) = cost a + cost b := by
  induction a with
  | nil => simp [cost]
  | cons symbol a ih => simp [cost, ih, Int.add_assoc]

/-- Whether a goal goes on with the operator ahead, which is to pay for it. -/
def Goal.climbs : Goal → Bool
  | .value (.climb _ _) => true
  | _ => false

/-! ## All productions -/

/-- What is true of a goal and each of its productions. -/
def Goal.fits (goal : Goal) (production : List Symbol) : Bool :=
  production.all Symbol.isSpelt && (!goal.unbracketed || production.all Symbol.unbracketed) &&
    (goal.climbs || 1 + Expression.cost production ≤ goal.cost)

variable (found : Form) (tokens : List Token)

/-- The words in front of a production do no harm to it. -/
theorem Goal.fits_wordsAhead {goal : Goal} (texts : List String) {symbols : List Symbol} (h : goal.fits symbols = true) :
    goal.fits (wordsAhead texts tokens ++ symbols) = true := by
  induction texts generalizing tokens with
  | nil => exact h
  | cons text texts ih =>
    rw [wordsAhead]
    split
    · have hrest := ih (tokens.drop 1)
      simp only [Goal.fits, Bool.and_eq_true, Bool.or_eq_true, decide_eq_true_eq] at hrest ⊢
      obtain ⟨⟨hspelt, hplace⟩, hcost⟩ := hrest
      refine ⟨⟨?_, ?_⟩, ?_⟩
      · rw [List.cons_append, List.all_cons, hspelt]
        rfl
      · rw [List.cons_append, List.all_cons]
        exact hplace.imp_right fun hall => by rw [hall]; rfl
      · have hword : Expression.cost (.word text :: (wordsAhead texts (tokens.drop 1) ++ symbols)) =
            -255 + Expression.cost (wordsAhead texts (tokens.drop 1) ++ symbols) := rfl
        rw [List.cons_append, hword]
        exact hcost.imp_right fun hless => by omega
    · exact ih tokens

/-- In front of a colon stands an underscore or a name. -/
theorem nameOrUnderscore_eq : nameOrUnderscore tokens = .word "_" ∨ nameOrUnderscore tokens = .name := by
  unfold nameOrUnderscore
  split
  · exact .inl rfl
  · exact .inr rfl

/-- It is true of the parts of paths, -/
theorem all_fits_pathProduction (goal : PathGoal) : (pathProduction goal tokens).all (Goal.fits (.path goal)) = true := by
  cases goal with
  | name | segment =>
    cases tokens with
    | nil => rfl
    | cons token tokens =>
      cases token with
      | ident text =>
        rw [pathProduction]
        repeat' apply all_ite
        all_goals rfl
      | punct | literal | group => rfl
  | _ =>
    rw [pathProduction]
    repeat' apply all_ite
    all_goals rfl

/-- of types, -/
theorem all_fits_typeProduction (goal : TypeGoal) :
    (typeProduction goal found tokens).all (Goal.fits (.type goal)) = true := by
  cases goal with
  | someParameters | parameter =>
    rw [typeProduction]
    rcases nameOrUnderscore_eq tokens with hname | hname <;> rw [hname] <;> repeat' apply all_ite
    all_goals rfl
  | boundList aliased | moreBoundList aliased => cases aliased <;> exact all_ite rfl rfl
  | _ =>
    rw [typeProduction]
    repeat' apply all_ite
    all_goals rfl

/-- of patterns, -/
theorem all_fits_patternProduction (goal : PatternGoal) :
    (patternProduction goal found tokens).all (Goal.fits (.pattern goal)) = true := by
  cases goal with
  | field =>
    unfold patternProduction
    dsimp only
    split
    · exact all_ite rfl rfl
    · exact all_ite (Goal.fits_wordsAhead _ _ rfl) rfl
  | _ =>
    rw [patternProduction]
    repeat' apply all_ite
    all_goals rfl

/-- of blocks, -/
theorem all_fits_statementProduction (goal : StatementGoal) :
    (statementProduction goal found tokens).all (Goal.fits (.statement goal)) = true := by
  cases goal <;> rw [statementProduction] <;> repeat' apply all_ite
  all_goals rfl

/-- of items of their own, -/
theorem all_fits_declarationProduction (marked : Bool) :
    (declarationProduction marked tokens).all (Goal.fits (.item (.declaration .plain marked))) = true := by
  unfold declarationProduction
  repeat' apply all_ite
  all_goals rfl

/-- of associated items, -/
theorem all_fits_associatedProduction (surroundings : Surroundings) (marked : Bool) :
    (associatedProduction surroundings marked tokens).all (Goal.fits (.item (.associated surroundings marked))) =
      true := by
  unfold associatedProduction
  repeat' apply all_ite
  all_goals rfl

/-- of all parts of items, -/
theorem all_fits_itemProduction (goal : ItemGoal) : (itemProduction goal tokens).all (Goal.fits (.item goal)) = true := by
  cases goal with
  | declaration surroundings marked =>
    cases surroundings with
    | plain => exact all_fits_declarationProduction tokens marked
    | trait | implementation => exact all_ite rfl rfl
    | foreign => rfl
  | associated surroundings marked => exact all_fits_associatedProduction tokens surroundings marked
  | signature safe => exact Goal.fits_wordsAhead tokens _ rfl
  | importTree root =>
    unfold itemProduction
    dsimp only
    refine all_ite rfl (all_ite rfl ?_)
    split
    · exact all_ite rfl rfl
    · rfl
  | _ =>
    rw [itemProduction]
    repeat' apply all_ite
    all_goals rfl

/-- of operands, -/
theorem all_fits_atomProduction (struct : Bool) :
    (atomProduction struct tokens).all (Goal.fits (.value (.atom struct))) = true := by
  unfold atomProduction
  repeat' apply all_ite
  all_goals rfl

/-- The operator that goes on with an operand pays for it: what stands for it then costs less than a token. -/
def pays (production : List Symbol) : Bool :=
  production = [] || 1 + cost production ≤ -200

/-- of operators with the operand behind each, which pay in full, -/
theorem all_fits_operatorProduction (floor : Precedence) (struct : Bool) :
    (operatorProduction floor struct found tokens).all
      (fun production => Goal.fits (.value (.operators floor struct)) production && pays production) = true := by
  unfold operatorProduction
  refine all_ite rfl ?_
  split
  · rename_i text precedence heq
    have hspelt := isSpelt_of_binaryOperator? heq
    repeat' apply all_ite
    all_goals first
      | rfl
      | simp only [Option.all_some, Goal.fits, List.all_cons, hspelt]
        rfl
  · repeat' apply all_ite
    all_goals rfl

/-- of expressions, -/
theorem all_fits_valueProduction (goal : ValueGoal) :
    (valueProduction goal found tokens).all (Goal.fits (.value goal)) = true := by
  cases goal with
  | atom struct => exact all_fits_atomProduction tokens struct
  | operators floor struct =>
    have hall := all_fits_operatorProduction found tokens floor struct
    rw [valueProduction]
    cases h : operatorProduction floor struct found tokens with
    | none => rfl
    | some production =>
      rw [h, Option.all_some, Bool.and_eq_true] at hall
      exact hall.1
  | closureInputs struct => exact Goal.fits_wordsAhead tokens _ rfl
  | member path =>
    unfold valueProduction
    dsimp only
    split
    · split
      · repeat' apply all_ite
        all_goals rfl
      · rfl
    · exact all_ite rfl rfl
  | field =>
    unfold valueProduction
    dsimp only
    split
    · exact all_ite rfl rfl
    · rfl
    · rfl
  | _ =>
    rw [valueProduction]
    repeat' apply all_ite
    all_goals rfl

/-- and so of all parts of an expression. -/
theorem all_fits_production (goal : Goal) : (goal.production found tokens).all goal.fits = true := by
  cases goal with
  | path goal => exact all_fits_pathProduction tokens goal
  | type goal => exact all_fits_typeProduction found tokens goal
  | pattern goal => exact all_fits_patternProduction found tokens goal
  | statement goal => exact all_fits_statementProduction found tokens goal
  | value goal => exact all_fits_valueProduction found tokens goal
  | item goal => exact all_fits_itemProduction tokens goal

end PrivateLog.Expression
