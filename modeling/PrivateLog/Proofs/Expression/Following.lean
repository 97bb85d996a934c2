import PrivateLog.Proofs.Expression.Enough

/-!
# What may follow a symbol

Symbols that wait to be read stand in an order (`ordered`), whatever was replaced before: an operator of one character is
followed by a symbol that does not begin with what would make a longer operator of it (`Symbol.refuses`), behind an
expression stands what takes a whole operator or none of it (`munches`), and types begin only behind a terminal. The order is
that of each production (`all_orders_production`), and so it is kept when a goal is replaced by one (`ordered_production`).
-/

namespace PrivateLog.Expression

/-- Whether a symbol takes tokens itself, or those of a group. -/
def Symbol.isTerminal : Symbol → Bool
  | .goal _ | .form _ => false
  | _ => true

/-! ## Behind an operator -/

/-- Whether a goal may begin with a type. -/
def Goal.opensType : Goal → Bool
  | .path .argumentList | .path .argument => true
  | .type goal =>
    match goal with
    | .type _ | .list | .parenthesized | .element | .parameters _ | .someParameters _ | .parameter _ => true
    | _ => false
  | .item goal =>
    match goal with
    | .inputs _ | .someInputs _ | .inputType | .predicates | .predicate | .bounded => true
    | .fieldType | .unnamedFields | .unnamedField | .implementationTarget | .implementationType => true
    | _ => false
  | _ => false

/-- The operators of one character that are never the first part of a longer operator, with one exception: the type without
values is a `!`. -/
def steady : List String :=
  ["<", "=", ".", ":", "!"]

/-- Whether a symbol begins with nothing that would make a longer operator of a steady one. -/
def Symbol.refuses (text : String) : Symbol → Bool
  | .goal (.value (.operand _)) | .goal (.value (.expression _)) | .goal (.type (.type _)) | .goal (.path .argumentValue) =>
    text ≠ "."
  | .goal (.type (.boundList aliased)) => text = ":" || (aliased && text = "=")
  | .goal (.value .labelled) | .goal (.pattern .pattern) => text = ":"
  | .goal (.item .lifetimeList) | .goal (.item .fieldType) | .goal (.item .inputType) => text = ":"
  | .goal (.type .lifetimes) | .goal (.path .argumentList) => text = "<"
  | .goal (.type .captures) | .goal (.item .parameters) => text = "<"
  | .goal (.value (.member _)) => text = "."
  | .goal (.item .macroName) | .goal (.item .macroTokens) | .tree | .group _ _ => text = "!"
  | .operator dots => dots = "..." && text = ":"
  | _ => false

/-- Whether symbols may stand behind an operator. -/
def follows (text : String) : List Symbol → Bool
  | [] => text ∉ steady
  | symbol :: _ => text ∉ steady || symbol.refuses text

/-- Whether a symbol may stand before others; `opens` says whether a type may begin with it. -/
def guarded (opens : Bool) (symbol : Symbol) (symbols : List Symbol) : Bool :=
  match symbol with
  | .operator text => (opens && text = "!") || follows text symbols
  | .goal goal => opens || !goal.opensType
  | _ => true

/-! ## Behind an expression -/

/-- Whether a goal that stands behind an expression takes nothing of an operator or the whole of it. -/
def Goal.passes : Goal → Bool
  | .value (.operators _ _) | .value (.climb _ _) | .value .trailers | .value .afterCast => true
  | .statement .afterEarly | .statement (.diverging _) | .statement .armGuard => true
  | .item .condition => true
  | _ => false

/-- Whether a goal asks for a comma, or the end of the tokens. -/
def Goal.separates : Goal → Bool
  | .value .moreList | .value .afterElement | .value .moreFields => true
  | .pattern .moreList | .pattern .moreSlice | .pattern .moreFields => true
  | .item .moreVariants => true
  | _ => false

/-- Whether a goal asks for the end of a statement, unless a block has been read. -/
def Goal.endsStatement : Goal → Bool
  | .statement .statementEnd | .statement .armEnd => true
  | _ => false

/-- Whether a form is that of an expression that ends a statement. -/
def Form.isBlock : Form → Bool
  | .block | .bracedMacro => true
  | _ => false

/-- Whether symbols take nothing of an operator or the whole of it. `inside` says whether the expression before is known not
to end a statement, and `behind` whether what stands behind the symbols does the same. -/
def munches (behind : Bool → Bool) (inside : Bool) : List Symbol → Bool
  | [] => behind inside
  | .form next :: symbols => !next.isBlock && munches behind true symbols
  | .goal goal :: symbols => goal.separates || (inside && goal.endsStatement) || (goal.passes && munches behind inside symbols)
  | .operator text :: _ => text ∈ [",", ";", "=", "=>"]
  | .word _ :: _ | .group _ _ :: _ => true
  | _ => false

/-- What is known of the symbols behind an expression or a pattern: that they take operators as a whole, whatever the
expression is (`some false`) or unless it ends a statement (`some true`). -/
def Goal.tail : Goal → Option Bool
  | .type goal =>
    match goal with
    | .element | .length => some true
    | _ => none
  | .pattern goal =>
    match goal with
    | .pattern | .alternatives | .element | .afterElement | .field | .fieldPattern => some false
    | _ => none
  | .statement goal =>
    match goal with
    | .early | .afterEarly | .initializer | .armGuard | .tag | .tagValue => some true
    | _ => none
  | .value goal =>
    match goal with
    | .operators floor _ => some (floor = .lowest)
    | .climb _ _ | .rangeEnd _ | .breakValue _ | .optionalValue => some false
    | .expression _ | .operand _ | .atom _ | .trailers | .afterPath _ | .closure _ | .closureInputs _ | .closureBody _ =>
      some true
    | .array | .afterElement | .fields | .field | .fieldValue | .moreFields | .rest => some true
    | _ => none
  | .item goal =>
    match goal with
    | .value | .variant => some true
    | _ => none
  | .path _ => none

/-- Whether it is known of what stands behind a goal, or of the end, that it takes operators as a whole. -/
def knows (goal : Option Goal) (inside : Bool) : Bool :=
  match goal with
  | none => true
  | some goal => goal.tail = some false || (goal.tail = some true && inside)

/-! ## The order of symbols -/

/-- Whether a goal is the name or position of a field behind a dot. -/
def Goal.isMember : Goal → Bool
  | .value (.member _) => true
  | _ => false

/-- Whether symbols go on behind the name or position of a field, where `goal` is what they all stand for. -/
def followMember (goal : Option Goal) : List Symbol → Bool
  | [] => goal.any Goal.isMember
  | .form .plain :: .goal (.value .trailers) :: _ => true
  | _ => false

/-- Whether a symbol asks of what stands behind it no more than it is. -/
def fulfilled (goal : Option Goal) (symbol : Symbol) (symbols : List Symbol) : Bool :=
  symbols.head? ≠ some .position &&
    match symbol with
    | .goal part => (!part.isMember || followMember goal symbols) && part.tail.all fun inside => munches (knows goal) inside symbols
    | .group _ part => !part.isMember
    | _ => true

/-- Whether symbols are in order, where `goal` is what they stand for, if it is known. -/
def ordered (goal : Option Goal) (opens : Bool) : List Symbol → Bool
  | [] => true
  | symbol :: symbols =>
    guarded opens symbol symbols && fulfilled goal symbol symbols && ordered goal symbol.isTerminal symbols

/-- Whether a production is in order. -/
def Goal.orders (goal : Goal) (production : List Symbol) : Bool :=
  ordered (some goal) goal.opensType production

/-! ## All productions -/

variable (found : Form) (tokens : List Token)

/-- Words in front of symbols in order are in order with them, whatever the symbols stand for. -/
theorem ordered_wordsAhead {goal : Goal} (texts : List String) {symbols : List Symbol} (opens : Bool)
    (h : ∀ opens, ordered (some goal) opens symbols = true) (hhead : symbols.head? ≠ some .position) :
    ordered (some goal) opens (wordsAhead texts tokens ++ symbols) = true ∧
      (wordsAhead texts tokens ++ symbols).head? ≠ some .position := by
  induction texts generalizing tokens opens with
  | nil => exact ⟨h opens, hhead⟩
  | cons text texts ih =>
    rw [wordsAhead]
    split
    · obtain ⟨hrest, hnext⟩ := ih (tokens.drop 1) true
      refine ⟨?_, by simp⟩
      have hword : fulfilled (some goal) (.word text) (wordsAhead texts (tokens.drop 1) ++ symbols) = true := by
        simp only [fulfilled, decide_eq_true hnext, Bool.and_self]
      rw [List.cons_append, ordered, hword]
      exact hrest
    · exact ih tokens opens

/-- The parts of paths stand for symbols in order, -/
theorem all_orders_pathProduction (goal : PathGoal) :
    (pathProduction goal tokens).all (Goal.orders (.path goal)) = true := by
  cases goal with
  | name | segment =>
    cases tokens with
    | nil => rfl
    | cons token tokens =>
      cases token with
      | ident text =>
        rw [pathProduction]
        repeat' apply all_ite
        all_goals rfl
      | punct | literal | group => rfl
  | _ =>
    rw [pathProduction]
    repeat' apply all_ite
    all_goals rfl

/-- those of types, -/
theorem all_orders_typeProduction (goal : TypeGoal) :
    (typeProduction goal found tokens).all (Goal.orders (.type goal)) = true := by
  cases goal with
  | someParameters | parameter =>
    rw [typeProduction]
    rcases nameOrUnderscore_eq tokens with hname | hname <;> rw [hname] <;> repeat' apply all_ite
    all_goals rfl
  | _ =>
    rw [typeProduction]
    repeat' apply all_ite
    all_goals rfl

/-- of patterns, -/
theorem all_orders_patternProduction (goal : PatternGoal) :
    (patternProduction goal found tokens).all (Goal.orders (.pattern goal)) = true := by
  cases goal with
  | field =>
    unfold patternProduction
    dsimp only
    split
    · exact all_ite rfl rfl
    · refine all_ite (ordered_wordsAhead _ _ _ (fun opens => ?_) (by simp)).1 rfl
      cases opens <;> rfl
  | _ =>
    rw [patternProduction]
    repeat' apply all_ite
    all_goals rfl

/-- of blocks, -/
theorem all_orders_statementProduction (goal : StatementGoal) :
    (statementProduction goal found tokens).all (Goal.orders (.statement goal)) = true := by
  cases goal <;> rw [statementProduction] <;> repeat' apply all_ite
  all_goals rfl

/-- of items of their own, -/
theorem all_orders_declarationProduction (marked : Bool) :
    (declarationProduction marked tokens).all (Goal.orders (.item (.declaration .plain marked))) = true := by
  unfold declarationProduction
  repeat' apply all_ite
  all_goals rfl

/-- of associated items, -/
theorem all_orders_associatedProduction (surroundings : Surroundings) (marked : Bool) :
    (associatedProduction surroundings marked tokens).all (Goal.orders (.item (.associated surroundings marked))) =
      true := by
  unfold associatedProduction
  repeat' apply all_ite
  all_goals rfl

/-- of all parts of items, -/
theorem all_orders_itemProduction (goal : ItemGoal) :
    (itemProduction goal tokens).all (Goal.orders (.item goal)) = true := by
  cases goal with
  | declaration surroundings marked =>
    cases surroundings with
    | plain => exact all_orders_declarationProduction tokens marked
    | trait | implementation => exact all_ite rfl rfl
    | foreign => rfl
  | associated surroundings marked => exact all_orders_associatedProduction tokens surroundings marked
  | signature safe =>
    refine (ordered_wordsAhead tokens _ _ (fun opens => ?_) (by simp)).1
    cases opens <;> rfl
  | importTree root =>
    unfold itemProduction
    dsimp only
    refine all_ite rfl (all_ite rfl ?_)
    split
    · exact all_ite rfl rfl
    · rfl
  | _ =>
    rw [itemProduction]
    repeat' apply all_ite
    all_goals rfl

/-- of operands, -/
theorem all_orders_atomProduction (struct : Bool) :
    (atomProduction struct tokens).all (Goal.orders (.value (.atom struct))) = true := by
  unfold atomProduction
  repeat' apply all_ite
  all_goals rfl

/-- The operators between two operands are followed by what a steady one asks for. -/
theorem follows_of_binaryOperator? {text : String} {precedence : Precedence}
    (h : binaryOperator? tokens = some (text, precedence)) (struct : Bool) (symbols : List Symbol) :
    follows text (.value (.operand struct) :: symbols) = true := by
  have hall : ∀ entry ∈ binaryOperators, entry.1 ≠ "." := by decide
  have htext := hall _ (List.mem_of_find?_eq_some h)
  simp [follows, Symbol.refuses, htext]

/-- of operators with the operand behind each, -/
theorem all_orders_operatorProduction (floor : Precedence) (struct : Bool) :
    (operatorProduction floor struct found tokens).all (Goal.orders (.value (.operators floor struct))) = true := by
  unfold operatorProduction
  refine all_ite rfl ?_
  split
  · rename_i text precedence heq
    have hfollows := follows_of_binaryOperator? tokens heq struct
    repeat' apply all_ite
    · rfl
    · rfl
    · simp only [Option.all_some, Goal.orders, ordered, guarded, hfollows]
      cases floor <;> cases precedence <;> rfl
    · simp only [Option.all_some, Goal.orders, ordered, guarded, hfollows]
      cases floor <;> cases precedence <;> rfl
  · repeat' apply all_ite
    all_goals cases floor <;> rfl

/-- of expressions, -/
theorem all_orders_valueProduction (goal : ValueGoal) :
    (valueProduction goal found tokens).all (Goal.orders (.value goal)) = true := by
  cases goal with
  | atom struct => exact all_orders_atomProduction tokens struct
  | operators floor struct => exact all_orders_operatorProduction found tokens floor struct
  | climb floor struct =>
    rw [valueProduction]
    refine all_ite rfl (all_ite ?_ rfl)
    generalize precedenceAhead tokens = next
    cases next <;> rfl
  | closureInputs struct =>
    refine (ordered_wordsAhead tokens _ _ (fun opens => ?_) (by simp)).1
    cases opens <;> rfl
  | afterPath struct =>
    rw [valueProduction]
    refine all_ite ?_ (all_ite rfl rfl)
    cases isGroup .brace (tokens.drop 1) <;> rfl
  | member path =>
    unfold valueProduction
    dsimp only
    split
    · split
      · repeat' apply all_ite
        all_goals rfl
      · rfl
    · exact all_ite rfl rfl
  | field =>
    unfold valueProduction
    dsimp only
    split
    · exact all_ite rfl rfl
    · rfl
    · rfl
  | _ =>
    rw [valueProduction]
    repeat' apply all_ite
    all_goals rfl

/-- and so those of all goals. -/
theorem all_orders_production (goal : Goal) : (goal.production found tokens).all goal.orders = true := by
  cases goal with
  | path goal => exact all_orders_pathProduction tokens goal
  | type goal => exact all_orders_typeProduction found tokens goal
  | pattern goal => exact all_orders_patternProduction found tokens goal
  | statement goal => exact all_orders_statementProduction found tokens goal
  | value goal => exact all_orders_valueProduction found tokens goal
  | item goal => exact all_orders_itemProduction tokens goal

/-! ## The order is kept -/

section
variable {goal : Goal} {symbols : List Symbol}

/-- What is known of the symbols behind a goal is true of them. -/
def Goal.Known (goal : Goal) (symbols : List Symbol) : Prop :=
  (∀ inside, knows (some goal) inside = true → munches (knows none) inside symbols = true) ∧
    (goal.isMember = true → followMember none symbols = true) ∧ symbols.head? ≠ some .position ∧
    ordered none false symbols = true

/-- Symbols that take operators as a whole unless the expression before ends a statement do so if it is known not to. -/
theorem munches_true_of_munches (h : munches (knows none) false symbols = true) : munches (knows none) true symbols = true := by
  induction symbols with
  | nil => rfl
  | cons symbol symbols ih =>
    cases symbol with
    | goal part =>
      simp only [munches, Bool.or_eq_true, Bool.and_eq_true] at h ⊢
      exact h.imp (Or.imp_right nofun) (And.imp_right ih)
    | _ => exact h

/-- In an order where a type may not come next, one may. -/
theorem ordered_of_ordered_false (opens : Bool) (h : ordered none false symbols = true) : ordered none opens symbols = true := by
  cases symbols with
  | nil => rfl
  | cons symbol symbols =>
    rw [ordered, Bool.and_eq_true, Bool.and_eq_true] at h ⊢
    refine ⟨⟨?_, h.1.2⟩, h.2⟩
    cases opens with
    | false => exact h.1.1
    | true =>
      cases symbol with
      | operator text =>
        have hfollows : follows text symbols = true := h.1.1
        rw [guarded, hfollows, Bool.or_true]
      | _ => rfl

/-- What a goal in order asks of the symbols behind it. -/
theorem known_of_ordered {opens : Bool} (h : ordered none opens (.goal goal :: symbols) = true) : goal.Known symbols := by
  simp only [ordered, fulfilled, Bool.and_eq_true, Bool.or_eq_true, Bool.not_eq_true', decide_eq_true_eq] at h
  obtain ⟨⟨-, hposition, hmember, htail⟩, hrest⟩ := h
  refine ⟨fun inside hknows => ?_, fun h => hmember.resolve_left (by simp [h]), hposition, hrest⟩
  simp only [knows, Bool.or_eq_true, Bool.and_eq_true, decide_eq_true_eq] at hknows
  rcases hknows with heq | ⟨heq, rfl⟩
  · rw [heq] at htail
    cases inside with
    | false => exact htail
    | true => exact munches_true_of_munches htail
  · rw [heq] at htail
    exact htail

/-- Symbols in a production take operators as a whole if they do together with what is known behind it. -/
theorem munches_append {inside : Bool} {production : List Symbol} (hknown : goal.Known symbols)
    (h : munches (knows (some goal)) inside production = true) :
    munches (knows none) inside (production ++ symbols) = true := by
  induction production generalizing inside with
  | nil => exact hknown.1 inside h
  | cons symbol production ih =>
    cases symbol with
    | form next =>
      rw [munches, Bool.and_eq_true] at h
      rw [List.cons_append, munches, h.1, ih h.2, Bool.and_self]
    | goal part =>
      simp only [List.cons_append, munches, Bool.or_eq_true, Bool.and_eq_true] at h ⊢
      exact h.imp_right (And.imp_right ih)
    | _ => exact h

/-- So do the symbols behind the name of a field. -/
theorem followMember_append {production : List Symbol} (hknown : goal.Known symbols)
    (h : followMember (some goal) production = true) : followMember none (production ++ symbols) = true := by
  unfold followMember at h
  split at h
  · exact hknown.2.1 h
  · rfl
  · cases h

/-- A production in order is in order in the place of its goal. -/
theorem ordered_append {opens : Bool} {production : List Symbol} (hknown : goal.Known symbols)
    (h : ordered (some goal) opens production = true) : ordered none opens (production ++ symbols) = true := by
  induction production generalizing opens with
  | nil => exact ordered_of_ordered_false opens hknown.2.2.2
  | cons symbol production ih =>
    simp only [ordered, Bool.and_eq_true] at h
    obtain ⟨⟨hguarded, hfulfilled⟩, hrest⟩ := h
    simp only [List.cons_append, ordered, Bool.and_eq_true]
    refine ⟨⟨?_, ?_⟩, ih hrest⟩
    · cases symbol with
      | operator text =>
        cases production with
        | nil =>
          simp only [guarded, follows, Bool.or_eq_true] at hguarded
          simp only [guarded, List.nil_append, Bool.or_eq_true]
          refine hguarded.imp_right fun hsteady => ?_
          cases symbols with
          | nil => exact hsteady
          | cons => exact Bool.or_eq_true_iff.2 (Or.inl hsteady)
        | cons => exact hguarded
      | _ => exact hguarded
    · simp only [fulfilled, Bool.and_eq_true, decide_eq_true_eq] at hfulfilled ⊢
      refine ⟨?_, ?_⟩
      · cases production with
        | nil => exact hknown.2.2.1
        | cons => exact hfulfilled.1
      · cases symbol with
        | goal part =>
          simp only [Bool.and_eq_true, Bool.or_eq_true, Option.all_eq_true] at hfulfilled ⊢
          exact ⟨hfulfilled.2.1.imp_right (followMember_append hknown),
            fun inside heq => munches_append hknown (hfulfilled.2.2 inside heq)⟩
        | group delimiter part => exact hfulfilled.2
        | _ => rfl

/-- The order is kept when a goal is replaced by a production. -/
theorem ordered_production {found : Form} {tokens : List Token} {opens : Bool} {production : List Symbol}
    (hp : goal.production found tokens = some production) (h : ordered none opens (.goal goal :: symbols) = true) :
    ordered none opens (production ++ symbols) = true := by
  have horders := all_orders_production found tokens goal
  rw [hp, Option.all_some, Goal.orders] at horders
  have happend := ordered_append (known_of_ordered h) horders
  cases opens with
  | false =>
    simp only [ordered, guarded, Bool.and_eq_true, Bool.false_or, Bool.not_eq_true'] at h
    rwa [h.1.1] at happend
  | true =>
    cases hopens : goal.opensType with
    | false =>
      rw [hopens] at happend
      exact ordered_of_ordered_false true happend
    | true => rwa [hopens] at happend

/-- Symbols that wait to be read are in order, and their operators are spelt with punctuation. `opens` says whether a type
may begin with what is ahead. -/
structure InOrder (opens : Bool) (symbols : List Symbol) : Prop where
  spelt : symbols.all Symbol.isSpelt = true
  ordered : ordered none opens symbols = true

/-- A goal alone is in order, such as an expression or what stands in a group. -/
theorem inOrder_goal {goal : Goal} (hmember : goal.isMember = false) : InOrder true [.goal goal] := by
  refine ⟨rfl, ?_⟩
  have htail : goal.tail.all (fun inside => munches (knows none) inside []) = true := by
    cases goal.tail <;> rfl
  simp [Expression.ordered, guarded, fulfilled, hmember, htail]

variable {opens : Bool}

/-- The symbols behind the first one are in order; behind a goal no type may come next. -/
theorem InOrder.behind {symbol : Symbol} (h : InOrder opens (symbol :: symbols)) : InOrder symbol.isTerminal symbols := by
  obtain ⟨hspelt, hordered⟩ := h
  rw [List.all_cons, Bool.and_eq_true] at hspelt
  rw [Expression.ordered, Bool.and_eq_true] at hordered
  exact ⟨hspelt.2, hordered.2⟩

/-- If the next goal begins with no type, a type may as well not come next. -/
theorem InOrder.closed (h : InOrder opens (.goal goal :: symbols)) (hgoal : goal.opensType = false) :
    InOrder false (.goal goal :: symbols) := by
  obtain ⟨hspelt, hordered⟩ := h
  refine ⟨hspelt, ?_⟩
  simp only [Expression.ordered, guarded, Bool.and_eq_true, hgoal] at hordered ⊢
  exact ⟨⟨rfl, hordered.1.2⟩, hordered.2⟩

/-- The order is kept when a goal is replaced by a production. -/
theorem InOrder.production {found : Form} {tokens : List Token} {production : List Symbol}
    (h : InOrder opens (.goal goal :: symbols)) (hp : goal.production found tokens = some production) :
    InOrder opens (production ++ symbols) := by
  obtain ⟨hspelt, hordered⟩ := h
  rw [List.all_cons, Bool.and_eq_true] at hspelt
  refine ⟨?_, ordered_production hp hordered⟩
  rw [List.all_append, all_isSpelt_production hp, hspelt.2, Bool.and_self]

/-- A goal in order is read by reading what is known to stand for it, and that is in order. -/
theorem Reads.replaced_inOrder {leftovers : Leftovers} {found last : Form} {tokens taken left : List Token}
    (h : Reads leftovers (.goal goal :: symbols) found tokens taken last left) (horder : InOrder opens (.goal goal :: symbols))
    (production : List Symbol) (hp : goal.production found tokens = some production) :
    Reads leftovers (production ++ symbols) found tokens taken last left ∧ InOrder opens (production ++ symbols) :=
  ⟨h.replaced production hp, horder.production hp⟩

end

end PrivateLog.Expression
