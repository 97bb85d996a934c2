import PrivateLog.Proofs.Expression.Items

/-!
# Operands in the normal spacing

The parts of an expression have the same productions for the tokens that are read and for those that are taken
(`Reads.valueProduction_eq`), and so has every goal (`Reads.production_eq`). The operators between two operands are looked for
from the longest: one that is ahead there is taken as it stands, or left to the operators that bind less strongly. The exception
is the number of a tuple field: `0.1` behind a dot is written anew as a field of a field.
-/

namespace PrivateLog.Expression

variable {symbols : List Symbol} {found last : Form} {tokens taken : List Token} {opens : Bool}

/-- An operand may begin with two colons, -/
theorem Reads.isOperator_colons_of_atom {struct : Bool}
    (h : Reads .refused (.value (.atom struct) :: symbols) found tokens taken last [])
    (hcolons : isOperator "::" tokens = true) : isOperator "::" taken = true := by
  obtain ⟨spacing, rest, rfl⟩ := exists_of_colons hcolons
  have h := h.replaced [Symbol.path (.path .value), .value (.afterPath struct)] (by
    simp [Goal.production, valueProduction, atomProduction, startsAsyncBlock, startsClosure, startsPathOperand, startsPath,
      isBinder, isOperatorOf, isLiteral, isWord, isWordOf, isOperator, isSpelled])
  exact h.isOperator_colons_of_path hcolons

/-- and so may an expression. -/
theorem Reads.isOperator_colons_of_expression {struct : Bool}
    (h : Reads .refused (.value (.expression struct) :: symbols) found tokens taken last [])
    (hcolons : isOperator "::" tokens = true) : isOperator "::" taken = true := by
  obtain ⟨spacing, rest, rfl⟩ := exists_of_colons hcolons
  have h := h.replaced [Symbol.value (.operand struct), .value (.operators .lowest struct)] rfl
  have h := h.replaced [Symbol.value (.atom struct), .value .trailers] (by
    simp [Goal.production, valueProduction, isTaggedRange, isOperator, isSpelled])
  exact h.isOperator_colons_of_atom hcolons

/-- The same operands begin with a path. -/
theorem Reads.startsPathOperand_eq {struct : Bool}
    (h : Reads .refused (.value (.atom struct) :: symbols) found tokens taken last [])
    (horder : InOrder opens (.value (.atom struct) :: symbols)) : startsPathOperand taken = startsPathOperand tokens := by
  have hl := h.loosened rfl horder.spelt
  have hpath := hl.startsPath (hl.isOperator_eq h.isOperator_colons_of_atom)
  have htry : (isWord "try" tokens && (isOperator "!" (taken.drop 1) || isOperator "::" (taken.drop 1))) =
      (isWord "try" tokens && (isOperator "!" (tokens.drop 1) || isOperator "::" (tokens.drop 1))) := by
    refine and_congr_ahead fun hword => ?_
    have hbehind := hl.behind_ident (isIdent_of_isWord hword)
    rw [hbehind.isOperator_of_length "!" rfl, hbehind.isOperator_eq fun hcolons => ?_]
    obtain ⟨name, rest, rfl⟩ := exists_of_isIdent (isIdent_of_isWord hword)
    obtain rfl : name = "try" := eq_of_beq hword
    obtain ⟨spacing, others, rfl⟩ := exists_of_colons hcolons
    obtain ⟨h, horder⟩ := h.replaced_inOrder horder [Symbol.path (.path .value), .value (.afterPath struct)] (by
      simp [Goal.production, valueProduction, atomProduction, startsAsyncBlock, startsClosure, startsPathOperand, isBinder,
        isLiteral, isGroup, isWord, isWordOf, isOperator, isSpelled])
    obtain ⟨more, rfl, hmore, -⟩ := h.exists_behind_segment horder
    exact hmore.trans hcolons
  simp only [startsPathOperand, hpath, hl.isWord, htry]

/-- An operand without lower bound begins with two dots and an equals sign, -/
theorem Reads.isOperator_inclusive_of_atom {struct : Bool}
    (h : Reads .refused (.value (.atom struct) :: symbols) found tokens taken last [])
    (hrange : isOperator "..=" tokens = true) : isOperator "..=" taken = true := by
  have hspelling : "..=".toList = ['.', '.', '='] := rfl
  obtain ⟨spacing, rest, rfl⟩ := exists_of_three_dots hspelling hrange
  refine h.isOperator_of_first ?_
  simp [Goal.first?, Goal.production, valueProduction, atomProduction, startsAsyncBlock, startsClosure, startsPathOperand,
    startsPath, isBinder, isOperatorOf, isLiteral, isName, isGroup, isWord, isWordOf, isOperator, isSpelled]

/-- and none begins with three. -/
theorem Reads.not_isOperator_dots_of_atom {struct : Bool}
    (h : Reads .refused (.value (.atom struct) :: symbols) found tokens taken last []) : isOperator "..." tokens = false := by
  refine Bool.eq_false_iff.2 fun hdots => ?_
  have hspelling : "...".toList = ['.', '.', '.'] := rfl
  obtain ⟨production, hp, -⟩ := h.of_goal
  obtain ⟨spacing, rest, rfl⟩ := exists_of_three_dots hspelling hdots
  simp [Goal.production, valueProduction, atomProduction, startsAsyncBlock, startsClosure, startsPathOperand, startsPath,
      isBinder, isOperatorOf, isLiteral, isName, isGroup, isWord, isWordOf, isLifetime, isOperator, isSpelled] at hp

/-- No operand is a range with attributes in front. -/
theorem Reads.isTaggedRange_eq {struct : Bool}
    (h : Reads .refused (.value (.operand struct) :: symbols) found tokens taken last [])
    (horder : InOrder opens (.value (.operand struct) :: symbols)) : isTaggedRange taken = isTaggedRange tokens := by
  obtain ⟨production, hp, -⟩ := h.of_goal
  have hnone : isTaggedRange tokens = false := by
    refine Bool.eq_false_iff.2 fun htagged => ?_
    simp [Goal.production, valueProduction, htagged] at hp
  rw [hnone]
  exact Bool.eq_false_iff.2 fun htaken => Bool.eq_false_iff.1 hnone ((h.loosened rfl horder.spelt).isTaggedRange htaken)

/-- The operators between two operands are ahead in both rows if those of several characters are that are not steady. -/
theorem binaryOperator?_eq {a b : List Token} (h : Loosened a b) (hequal : isOperator "==" b = isOperator "==" a)
    (hglued : ∀ text ∈ glued, isOperator text a = true → isOperator text b = true) :
    binaryOperator? b = binaryOperator? a := by
  have hall : ∀ entry ∈ binaryOperators, entry.1 ∈ glued ∨ entry.1 = "==" ∨ entry.1.toList.length = 1 := by decide
  refine List.find?_congr fun entry hm => ?_
  rcases hall entry hm with htext | htext | hlength
  · exact h.isOperator_eq (hglued _ htext)
  · rw [htext, hequal]
  · exact h.isOperator_of_length _ hlength

/-- So is the sign of an assignment if the arrow of an arm is. -/
theorem isAssignment_eq {a b : List Token} (h : Loosened a b) (harrow : isOperator "=>" b = isOperator "=>" a) :
    isAssignment b = isAssignment a := by
  rw [isAssignment, isAssignment, h.isOperator_of_length "=" rfl, harrow]

/-- An operator of several characters is read as it stands where the operators behind an operand are read, -/
theorem Reads.isOperator_of_operators {floor : Precedence} {struct : Bool} {text : String}
    (h : Reads .refused (.value (.operators floor struct) :: symbols) found tokens taken last [])
    (horder : InOrder opens (.value (.operators floor struct) :: symbols)) (hfound : found ≠ .range) (htext : text ∈ glued)
    (hoperator : isOperator text tokens = true) : isOperator text taken = true := by
  obtain ⟨⟨spelt, p⟩, heq⟩ := Option.isSome_iff_exists.1 (isSome_binaryOperator? htext hoperator)
  obtain ⟨production, hp, hreads⟩ := h.of_goal
  rcases operatorProduction_cases (Option.isSome_iff_exists.2 ⟨_, heq⟩) hp with rfl | ⟨_, _, others, hbinary, rfl⟩
  · have hfloor : floor ≠ .lowest := by
      rintro rfl
      simp only [Goal.production, valueProduction, operatorProduction, if_neg hfound, heq, Precedence.rank, Nat.not_lt_zero,
        if_false] at hp
      split_ifs at hp <;> cases hp
    exact h.isOperator_of_nil horder (by simp [Goal.tail, hfloor]) hp htext hoperator
  · exact isOperator_of_reads_operator hreads hbinary htext hoperator

/-- and where an operand goes on with those that bind more strongly. -/
theorem Reads.isOperator_of_climb {floor : Precedence} {struct : Bool} {text : String}
    (h : Reads .refused (.value (.climb floor struct) :: symbols) found tokens taken last [])
    (horder : InOrder opens (.value (.climb floor struct) :: symbols)) (hfound : found ≠ .range) (htext : text ∈ glued)
    (hoperator : isOperator text tokens = true) : isOperator text taken = true := by
  obtain ⟨production, hp, hreads⟩ := h.of_goal
  have hproduction := hp
  simp only [Goal.production, valueProduction, if_neg hfound] at hp
  split_ifs at hp
  · cases hp
    exact hreads.isOperator_of_operators (horder.production hproduction) hfound htext hoperator
  · cases hp
    exact h.isOperator_of_nil horder rfl hproduction htext hoperator

/-- Between operands a range with three characters has an equals sign. -/
theorem Reads.isOperator_inclusive_of_operators {floor : Precedence} {struct : Bool}
    (h : Reads .refused (.value (.operators floor struct) :: symbols) found tokens taken last [])
    (hfound : found ≠ .range) (hfloor : floor.rank ≤ Precedence.range.rank) :
    (isOperator "..=" tokens = true → isOperator "..=" taken = true) ∧ isOperator "..." tokens = false := by
  refine ⟨fun hrange => ?_, Bool.eq_false_iff.2 fun hdots => ?_⟩
  · have hspelling : "..=".toList = ['.', '.', '='] := rfl
    obtain ⟨spacing, rest, rfl⟩ := exists_of_three_dots hspelling hrange
    refine h.isOperator_of_first ?_
    simp [Goal.first?, Goal.production, valueProduction, operatorProduction, binaryOperator?, binaryOperators, isAssignment,
      hfound, hfloor, isOperator, isSpelled]
  · obtain ⟨production, hp, -⟩ := h.of_goal
    have hspelling : "...".toList = ['.', '.', '.'] := rfl
    obtain ⟨spacing, rest, rfl⟩ := exists_of_three_dots hspelling hdots
    simp [Goal.production, valueProduction, operatorProduction, binaryOperator?, binaryOperators, isAssignment, hfound,
        hfloor, isOperator, isSpelled] at hp

/-- The operators behind an operand are the same. -/
theorem Reads.operatorProduction_eq {floor : Precedence} {struct : Bool}
    (h : Reads .refused (.value (.operators floor struct) :: symbols) found tokens taken last [])
    (horder : InOrder opens (.value (.operators floor struct) :: symbols)) :
    operatorProduction floor struct found taken = operatorProduction floor struct found tokens := by
  have hl := h.loosened rfl horder.spelt
  by_cases hfound : found = .range
  · simp only [operatorProduction, if_pos hfound]
  · have hbinary := binaryOperator?_eq hl (h.isOperator_equal horder) fun text htext hoperator =>
      h.isOperator_of_operators horder hfound htext hoperator
    simp only [operatorProduction, hbinary, isAssignment_eq hl (h.isOperator_arrow horder), h.isOperator_dots horder,
      hl.isWord]
    by_cases hfloor : floor.rank ≤ Precedence.range.rank
    · obtain ⟨hrange, hdots⟩ := h.isOperator_inclusive_of_operators hfound hfloor
      rw [hl.isOperator_eq hrange, hl.isOperator_eq_false hdots, hdots]
    · simp only [decide_eq_false hfloor, Bool.and_false, Bool.false_eq_true, if_false]

/-- What is ahead binds as strongly as before. -/
theorem Reads.precedenceAhead_eq {floor : Precedence} {struct : Bool}
    (h : Reads .refused (.value (.climb floor struct) :: symbols) found tokens taken last [])
    (horder : InOrder opens (.value (.climb floor struct) :: symbols)) (hfound : found ≠ .range) :
    precedenceAhead taken = precedenceAhead tokens := by
  have hl := h.loosened rfl horder.spelt
  have hbinary := binaryOperator?_eq hl (h.isOperator_equal horder) fun text htext hoperator =>
    h.isOperator_of_climb horder hfound htext hoperator
  simp only [precedenceAhead, hbinary, isAssignment_eq hl (h.isOperator_arrow horder), h.isOperator_dots horder, hl.isWord]

/-- A range ends where it ended. -/
theorem Reads.endsRange_eq {struct : Bool}
    (h : Reads .refused (.value (.rangeEnd struct) :: symbols) found tokens taken last [])
    (horder : InOrder opens (.value (.rangeEnd struct) :: symbols)) : endsRange struct taken = endsRange struct tokens := by
  have hl := h.loosened rfl horder.spelt
  have hkept : endsRange struct tokens = true → ∀ text, text ∈ glued ∨ text = "=>" ∨ text.toList.length = 1 →
      isOperator text tokens = true → isOperator text taken = true := by
    intro hends text htext hoperator
    rcases htext with htext | rfl | hlength
    · exact h.isOperator_of_nil horder rfl (by simp [Goal.production, valueProduction, hends]) htext hoperator
    · rwa [h.isOperator_arrow horder]
    · rwa [hl.isOperator_of_length _ hlength]
  rw [Bool.eq_iff_iff]
  refine ⟨fun hb => ?_, fun ha => ?_⟩
  · simp only [endsRange, hl.isEmpty, h.isDot horder, hl.isGroup, hl.isWord, Bool.or_eq_true] at hb ⊢
    exact hb.imp_right hl.isOperatorOf
  · have hkept := hkept ha
    simp only [endsRange, hl.isEmpty, h.isDot horder, hl.isGroup, hl.isWord, Bool.or_eq_true] at ha ⊢
    refine ha.imp_right fun hoperators => ?_
    obtain ⟨text, hm, hoperator⟩ := List.any_eq_true.1 hoperators
    have hall : ∀ text ∈ [",", ";", "?", "=>", "=", "+", "/", "%", "^", ">", "<=", "!=", "-=", "*=", "&=", "|=", "<<="],
        text ∈ glued ∨ text = "=>" ∨ text.toList.length = 1 := by decide
    exact List.any_eq_true.2 ⟨text, hm, hkept text (hall text hm) hoperator⟩

/-- An expression begins where it began. -/
theorem Reads.startsExpression_eq {goal : Goal}
    (h : Reads .refused (.goal goal :: symbols) found tokens taken last [])
    (horder : InOrder opens (.goal goal :: symbols)) (htail : goal.tail = some false)
    (hnil : startsExpression tokens = false → goal.production found tokens = some [])
    (hcolons : isOperator "::" tokens = true → isOperator "::" taken = true) :
    startsExpression taken = startsExpression tokens := by
  have hl := h.loosened rfl horder.spelt
  have hcolons : isOperator "::" taken = isOperator "::" tokens := hl.isOperator_eq hcolons
  have hdots := h.isOperator_dots horder
  cases hstarts : startsExpression tokens with
  | false =>
    -- Nothing is read for the goal, and what stands behind it takes every operator as a whole.
    have hglued : ∀ text ∈ glued, isOperator text taken = isOperator text tokens := fun text htext =>
      hl.isOperator_eq (h.isOperator_of_nil horder htail (hnil hstarts) htext)
    rw [← hstarts]
    simp only [startsExpression, isOperatorOf, List.any_cons, List.any_nil, hl.isIdent, hl.isWord, hl.isTree, hl.isLiteral,
      hl.isLifetime, hdots, hcolons, hl.isOperator_of_length "#" rfl, hl.isOperator_of_length "!" rfl,
      hl.isOperator_of_length "-" rfl, hl.isOperator_of_length "*" rfl, hl.isOperator_of_length "|" rfl,
      hl.isOperator_of_length "&" rfl, hl.isOperator_of_length "<" rfl, hglued "!=" (by decide), hglued "-=" (by decide),
      hglued "->" (by decide), hglued "*=" (by decide), hglued "|=" (by decide), hglued "&=" (by decide),
      hglued "<=" (by decide), hglued "<<=" (by decide)]
  | true =>
    -- An operator that begins the expression was no part of a longer one, and is none.
    have hloosened : ∀ text, isOperator text tokens = false → isOperator text taken = false :=
      fun _ => hl.isOperator_eq_false
    simp only [startsExpression, isOperatorOf, List.any_cons, List.any_nil, hl.isIdent, hl.isWord, hl.isTree, hl.isLiteral,
      hl.isLifetime, hdots, hcolons, hl.isOperator_of_length "#" rfl, hl.isOperator_of_length "!" rfl,
      hl.isOperator_of_length "-" rfl, hl.isOperator_of_length "*" rfl, hl.isOperator_of_length "|" rfl,
      hl.isOperator_of_length "&" rfl, hl.isOperator_of_length "<" rfl] at hstarts ⊢
    grind

/-- Operands have the same productions in the normal spacing. -/
theorem Reads.atomProduction_eq {struct : Bool}
    (h : Reads .refused (.value (.atom struct) :: symbols) found tokens taken last [])
    (horder : InOrder opens (.value (.atom struct) :: symbols)) :
    atomProduction struct taken = atomProduction struct tokens := by
  have hl := h.loosened rfl horder.spelt
  have hrange : isOperator "..=" taken = isOperator "..=" tokens := hl.isOperator_eq h.isOperator_inclusive_of_atom
  have hdots : isOperator "..." tokens = false := h.not_isOperator_dots_of_atom
  simp only [atomProduction, hl.isLiteral, hl.startsAsyncBlock, hl.isWord, hl.isWordOf, hl.startsClosure,
    h.startsPathOperand_eq horder, hl.isGroup, hrange, h.isOperator_dots horder, hdots, hl.isOperator_eq_false hdots,
    hl.isLifetime]
  cases hident : isIdent tokens with
  | true =>
    have hbehind := hl.behind_ident hident
    simp only [hbehind.isWord, hbehind.isGroup, hbehind.isLifetime, hbehind.isOperator_of_length "#" rfl]
    cases hlifetime : isLifetime (tokens.drop 1) with
    | true =>
      have hlast : Loosened ((tokens.drop 1).drop 2) ((taken.drop 1).drop 2) := hbehind.behind_lifetime hlifetime
      rw [List.drop_drop, List.drop_drop] at hlast
      simp only [hlast.isOperator_of_length ":" rfl]
    | false => simp only [Bool.false_eq_true, if_false]
  | false =>
    have hword : ∀ text, isWord text tokens = false := fun _ => isWord_eq_false_of_isIdent hident
    simp only [startsAsyncBlock, hword, Bool.false_and, Bool.false_eq_true, if_false]

/-- The parts of an expression have the same productions in the normal spacing. The number of a tuple field behind a dot is
written anew, and left to what follows. -/
theorem Reads.valueProduction_eq {goal : ValueGoal}
    (h : Reads .refused (.value goal :: symbols) found tokens taken last [])
    (horder : InOrder opens (.value goal :: symbols))
    (hmember : Goal.isMember (.value goal) = true → ∀ text rest, tokens ≠ .literal text :: rest) :
    valueProduction goal found taken = valueProduction goal found tokens := by
  have hl := h.loosened rfl horder.spelt
  cases goal with
  | expression | conditional => rfl
  | operand struct =>
    simp only [valueProduction, h.isTaggedRange_eq horder, hl.isOperator_of_length "#" rfl, hl.isOperator_of_length "&" rfl,
      hl.isOperator_of_length "*" rfl, hl.isOperator_of_length "!" rfl, hl.isOperator_of_length "-" rfl]
    cases hand : isOperator "&" tokens with
    | true =>
      have hbehind := hl.behind_operator 1 rfl hand
      have hraw : ∀ text, (isWord "raw" (tokens.drop 1) && isWord text (taken.drop 2)) =
          (isWord "raw" (tokens.drop 1) && isWord text (tokens.drop 2)) := fun text => by
        have hsecond : (isWord "raw" (tokens.drop 1) && isWord text ((taken.drop 1).drop 1)) =
            (isWord "raw" (tokens.drop 1) && isWord text ((tokens.drop 1).drop 1)) :=
          hbehind.and_behind isIdent_of_isWord fun h => h.isWord text
        rwa [List.drop_drop, List.drop_drop] at hsecond
      simp only [hbehind.isWord, hraw]
    | false => simp only [Bool.false_eq_true, if_false]
  | operators floor struct => exact h.operatorProduction_eq horder
  | climb floor struct =>
    by_cases hfound : found = .range
    · simp only [valueProduction, if_pos hfound]
    · simp only [valueProduction, h.precedenceAhead_eq horder hfound]
  | rangeEnd struct => simp only [valueProduction, h.endsRange_eq horder]
  | atom struct => exact h.atomProduction_eq horder
  | labelled | builtin => simp only [valueProduction, hl.isWord, hl.isGroup]
  | afterCast | trailers => simp only [valueProduction, h.isDot horder, hl.isOperator_of_length "?" rfl, hl.isGroup]
  | member path =>
    cases hl with
    | literal => exact absurd rfl (hmember rfl _ _)
    | nil | ident | punct | group => rfl
  | afterMember =>
    have hcolons : isOperator "::" taken = isOperator "::" tokens := hl.isOperator_eq fun hcolons =>
      h.isOperator_of_first (by simp [Goal.first?, Goal.production, valueProduction, hcolons])
    simp only [valueProduction, hcolons, hl.isGroup]
  | afterPath struct =>
    simp only [valueProduction, h.isBang (horder.closed rfl) rfl, hl.isGroup]
    cases hbang : Expression.isBang tokens with
    | true =>
      simp only [Expression.isBang, Bool.and_eq_true] at hbang
      simp only [(hl.behind_operator 1 rfl hbang.1).isGroup]
    | false => simp only [Bool.and_false, Bool.false_eq_true, if_false]
  | list | moreList | array | moreFields | rest => simp only [valueProduction, hl.isEmpty]
  | afterElement => simp only [valueProduction, hl.isOperator_of_length ";" rfl]
  | fields => simp only [valueProduction, hl.isEmpty, h.isOperator_dots horder]
  | field =>
    cases hl with
    | nil | ident | group => rfl
    | @punct c =>
      by_cases hc : c = '#'
      · subst hc
        rfl
      · simp only [valueProduction]
        split <;> simp_all
    | literal =>
      obtain ⟨hposition, hagain⟩ := h.isPosition_of_field rfl
      simp only [valueProduction, hposition, hagain]
  | fieldValue => simp only [valueProduction, hl.isOperator_of_length ":" rfl]
  | otherwise =>
    cases hident : isIdent tokens with
    | true => simp only [valueProduction, hl.isWord, (hl.behind_ident hident).isWord]
    | false => simp only [valueProduction, hl.isWord, isWord_eq_false_of_isIdent hident, Bool.false_eq_true, if_false]
  | breakValue struct =>
    have hstarts : startsExpression taken = startsExpression tokens := by
      refine h.startsExpression_eq horder rfl (fun hstarts => ?_) fun hcolons => ?_
      · simp [Goal.production, valueProduction, hstarts]
      · obtain ⟨spacing, rest, rfl⟩ := exists_of_colons hcolons
        have h := h.replaced [Symbol.expression] (by
          simp [Goal.production, valueProduction, startsExpression, isOperatorOf, isGroup, hcolons])
        exact h.isOperator_colons_of_expression hcolons
    simp only [valueProduction, hstarts, hl.isGroup]
  | optionalValue =>
    have hstarts : startsExpression taken = startsExpression tokens := by
      refine h.startsExpression_eq horder rfl (fun hstarts => ?_) fun hcolons => ?_
      · simp [Goal.production, valueProduction, hstarts]
      · have h := h.replaced [Symbol.expression] (by
          simp [Goal.production, valueProduction, startsExpression, isOperatorOf, hcolons])
        exact h.isOperator_colons_of_expression hcolons
    simp only [valueProduction, hstarts]
  | optionalLifetime => simp only [valueProduction, hl.isLifetime]
  | closure struct => simp only [valueProduction, hl.isWord]
  | closureInputs struct => simp only [valueProduction, Expression.closureWords, hl.wordsAhead]
  | inputs | moreInputs => simp only [valueProduction, hl.isOperator_of_length "|" rfl]
  | input => simp only [valueProduction, hl.isOperator_of_length "#" rfl]
  | closureBody struct =>
    have harrow : isOperator "->" taken = isOperator "->" tokens := hl.isOperator_eq fun harrow =>
      h.isOperator_of_first (by simp [Goal.first?, Goal.production, valueProduction, harrow])
    simp only [valueProduction, harrow]

/-- A goal has the same production in the normal spacing, except for the number of a tuple field. -/
theorem Reads.production_eq {goal : Goal} (h : Reads .refused (.goal goal :: symbols) found tokens taken last [])
    (horder : InOrder opens (.goal goal :: symbols))
    (hmember : goal.isMember = true → ∀ text rest, tokens ≠ .literal text :: rest) :
    goal.production found taken = goal.production found tokens := by
  cases goal with
  | path => exact h.pathProduction_eq horder
  | type => exact h.typeProduction_eq horder
  | pattern => exact h.patternProduction_eq horder
  | statement => exact h.statementProduction_eq horder
  | value => exact h.valueProduction_eq horder hmember
  | item => exact h.itemProduction_eq horder

end PrivateLog.Expression
