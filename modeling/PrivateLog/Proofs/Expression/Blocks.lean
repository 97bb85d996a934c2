import PrivateLog.Proofs.Expression.Respacing

/-!
# Blocks in the normal spacing

The parts of a block have the same productions for the tokens that are read and for those that are taken
(`Reads.statementProduction_eq`). A statement may be a macro call, and what tells it from an expression stands behind the whole
path of the macro: it is read as it stands because the path is (`Reads.exists_behindMacro?`).
-/

namespace PrivateLog.Expression

/-! ## Looking past a macro's path -/

/-- A single dot stays one. -/
theorem Loosened.isDot {a b : List Token} (h : Loosened a b) (ha : isDot a = true) : Expression.isDot b = true := by
  simp only [Expression.isDot, Bool.and_eq_true, Bool.not_eq_true'] at ha ⊢
  exact ⟨(h.isOperator_of_length "." rfl).trans ha.1, h.isOperator_eq_false ha.2⟩

/-- Behind the path of a macro call that is ahead, the rows go on as they do. -/
theorem Loosened.exists_behindBang? {a b rest : List Token} (h : Loosened a b) (hb : behindBang? b = some rest) :
    ∃ behind, behindBang? a = some behind ∧ Loosened behind rest := by
  fun_induction behindBang? b generalizing a with
  | case1 name hname _ tokens ih =>
    cases h with
    | ident h =>
      cases h with
      | punct hjoint _ h =>
        obtain rfl := hjoint rfl
        cases h with
        | punct _ _ h =>
          obtain ⟨behind, ha, hbehind⟩ := ih h hb
          exact ⟨behind, by rw [behindBang?, if_pos hname, ha], hbehind⟩
  | case2 name hname =>
    cases h with
    | ident h =>
      cases h with
      | punct _ _ h =>
        cases hb
        exact ⟨_, by rw [behindBang?, if_pos hname], h⟩
  | case3 | case4 | case5 => cases hb

/-- So they do if the path may begin at the root. -/
theorem Loosened.exists_behindMacro? {a b rest : List Token} (h : Loosened a b) (hb : behindMacro? b = some rest) :
    ∃ behind, behindMacro? a = some behind ∧ Loosened behind rest := by
  cases hcolons : Expression.isOperator "::" a with
  | false =>
    rw [behindMacro?, h.isOperator_eq_false hcolons] at hb
    rw [behindMacro?, hcolons]
    exact h.exists_behindBang? hb
  | true =>
    have hbehind := h.behind_operator 2 rfl hcolons
    rw [behindMacro?] at hb
    split at hb
    · rw [behindMacro?, if_pos hcolons]
      exact hbehind.exists_behindBang? hb
    · -- only one of the colons is left, and no path begins with it
      obtain ⟨spacing, others, rfl⟩ := exists_of_colons hcolons
      cases h with
      | punct => cases hb

variable {symbols : List Symbol} {found last : Form} {tokens taken rest : List Token} {opens : Bool}

/-- A name in the path of a macro is read by taking it. -/
theorem Reads.of_pathName {name : String}
    (h : Reads .refused (.path .name :: symbols) found (.ident name :: rest) taken last []) :
    ∃ more, taken = .ident name :: more ∧ Reads .refused (.path .moreNames :: symbols) found rest more last [] := by
  obtain ⟨production, hp, h⟩ := h.of_goal
  simp only [Goal.production, pathProduction] at hp
  split_ifs at hp
  · cases hp
    obtain ⟨_, more, heq, rfl, h⟩ := h.of_word
    cases heq
    exact ⟨more, rfl, h⟩
  · cases hp
    obtain ⟨_, _, more, heq, rfl, h⟩ := h.of_name
    cases heq
    exact ⟨more, rfl, h⟩

/-- Where the path of a macro is read, what stands behind its mark is read from what stood behind it. -/
theorem Reads.exists_behindBang?
    (h : Reads .refused (.path .name :: .operator "!" :: symbols) found tokens taken last [])
    (hcall : behindBang? tokens = some rest) :
    ∃ more, behindBang? taken = some more ∧ Reads .refused symbols found rest more last [] := by
  fun_induction behindBang? tokens generalizing taken with
  | case1 name hnamed spacing tokens ih =>
    obtain ⟨_, rfl, hmore⟩ := h.of_pathName
    have hmore := hmore.replaced [Symbol.operator "::", .path .name] (by
      simp [Goal.production, pathProduction, isOperator, isSpelled])
    obtain ⟨-, _, rfl, hname⟩ := hmore.of_operator
    obtain ⟨behind, hbehind, hreads⟩ := ih hname hcall
    refine ⟨behind, ?_, hreads⟩
    rw [show operatorTokens "::".toList = [.punct ':' .joint, .punct ':' .alone] from rfl]
    rw [List.cons_append, List.cons_append, List.nil_append, behindBang?, if_pos hnamed, hbehind]
  | case2 name hnamed =>
    obtain ⟨_, rfl, hmore⟩ := h.of_pathName
    have hmore := hmore.replaced [] (by simp [Goal.production, pathProduction, isOperator, isSpelled])
    obtain ⟨-, more, rfl, hreads⟩ := hmore.of_operator
    cases hcall
    refine ⟨more, ?_, hreads⟩
    rw [show operatorTokens "!".toList = [.punct '!' .alone] from rfl]
    rw [List.cons_append, List.nil_append, behindBang?, if_pos hnamed]
  | case3 | case4 | case5 => cases hcall

/-- So it is if the path may begin at the root. -/
theorem Reads.exists_behindMacro?
    (h : Reads .refused (.path .names :: .operator "!" :: symbols) found tokens taken last [])
    (hcall : behindMacro? tokens = some rest) :
    ∃ more, behindMacro? taken = some more ∧ Reads .refused symbols found rest more last [] := by
  rw [behindMacro?] at hcall
  cases hcolons : isOperator "::" tokens with
  | true =>
    rw [if_pos hcolons] at hcall
    have h := h.replaced [Symbol.operator "::", .path .name] (by simp [Goal.production, pathProduction, hcolons])
    obtain ⟨-, _, rfl, hname⟩ := h.of_operator
    exact hname.exists_behindBang? hcall
  | false =>
    rw [hcolons] at hcall
    have h := h.replaced [Symbol.path .name] (by simp [Goal.production, pathProduction, hcolons])
    obtain ⟨more, hmore, hreads⟩ := h.exists_behindBang? hcall
    refine ⟨more, ?_, hreads⟩
    rw [behindMacro?]
    split
    · rename_i htaken
      obtain ⟨spacing, others, rfl⟩ := exists_of_colons htaken
      cases hmore
    · exact hmore

/-- A macro call begins with no attribute. -/
theorem isOperator_of_behindMacro? (h : behindMacro? tokens = some rest) : isOperator "#" tokens = false := by
  refine Bool.eq_false_iff.2 fun hmark => ?_
  cases tokens with
  | nil => cases hmark
  | cons token tokens =>
    cases token with
    | punct c spacing =>
      obtain rfl : '#' = c := by simpa [isOperator, isSpelled] using hmark
      cases h
    | _ => cases hmark

/-! ## Macro calls -/

/-- The braces that end a statement ended it. -/
theorem Loosened.endsMacro {a b : List Token} (h : Loosened a b) (hb : endsMacro b = true) :
    Expression.endsMacro a = true := by
  simp only [Expression.endsMacro, Bool.and_eq_true, Bool.not_eq_true', h.isGroup] at hb ⊢
  obtain ⟨⟨hgroup, hdot⟩, hquestion⟩ := hb
  cases h with
  | group _ h =>
    exact ⟨⟨hgroup, Bool.eq_false_iff.2 fun ha => Bool.eq_false_iff.1 hdot (h.isDot ha)⟩,
      (h.isOperator_of_length "?" rfl).symm.trans hquestion⟩
  | _ => cases hgroup

/-- A macro call that ends a statement ended one. -/
theorem Loosened.isMacroStatement {a b : List Token} (h : Loosened a b) (hb : isMacroStatement b = true) :
    Expression.isMacroStatement a = true := by
  obtain ⟨rest, hrest, hends⟩ := (Option.any_eq_true _ _).1 hb
  obtain ⟨behind, ha, hbehind⟩ := h.exists_behindMacro? hrest
  exact (Option.any_eq_true _ _).2 ⟨behind, ha, hbehind.endsMacro hends⟩

/-- A macro call that defines a name defined it. -/
theorem Loosened.isMacroItem {a b : List Token} (h : Loosened a b) (hb : isMacroItem b = true) :
    Expression.isMacroItem a = true := by
  obtain ⟨rest, hrest, hname⟩ := (Option.any_eq_true _ _).1 hb
  obtain ⟨behind, ha, hbehind⟩ := h.exists_behindMacro? hrest
  rw [hbehind.isName, hbehind.isWord] at hname
  exact (Option.any_eq_true _ _).2 ⟨behind, ha, hname⟩

/-- A macro call that ends a statement is read as one. -/
theorem Reads.isMacroStatement_eq (h : Reads .refused (.statement .statement :: symbols) found tokens taken last [])
    (horder : InOrder opens (.statement .statement :: symbols)) : isMacroStatement taken = isMacroStatement tokens := by
  refine Bool.eq_iff_iff.2 ⟨(h.loosened rfl horder.spelt).isMacroStatement, fun hcall => ?_⟩
  obtain ⟨rest, hrest, hends⟩ := (Option.any_eq_true _ _).1 hcall
  obtain ⟨h, horder⟩ := h.replaced_inOrder horder
    [Symbol.path .names, .operator "!", .tree, .statement .optionalSemicolon, .statement .statements] (by
      simp [Goal.production, statementProduction, hcall, isOperator_of_behindMacro? hrest])
  obtain ⟨more, hmore, hreads⟩ := h.exists_behindMacro? hrest
  refine (Option.any_eq_true _ _).2 ⟨more, hmore, ?_⟩
  obtain ⟨_, _, _, _, rfl, rfl, hbehind⟩ := hreads.of_tree
  have horder := horder.behind.behind.behind
  have hquestion := (hbehind.loosened rfl horder.spelt).isOperator_of_length "?" rfl
  simp only [endsMacro, List.drop_succ_cons, List.drop_zero, hbehind.isDot horder, hquestion]
  exact hends

/-- A macro call that defines a name is read as one. -/
theorem Reads.isMacroItem_eq (h : Reads .refused (.statement .statement :: symbols) found tokens taken last [])
    (horder : InOrder opens (.statement .statement :: symbols)) (hstatement : isMacroStatement tokens = false) :
    isMacroItem taken = isMacroItem tokens := by
  refine Bool.eq_iff_iff.2 ⟨(h.loosened rfl horder.spelt).isMacroItem, fun hcall => ?_⟩
  obtain ⟨rest, hrest, hname⟩ := (Option.any_eq_true _ _).1 hcall
  obtain ⟨production, hp, h⟩ := h.of_goal
  have horder := horder.production hp
  obtain ⟨-, rfl⟩ : isWord "Self" tokens = false ∧
      [Symbol.path .names, .operator "!", .item .macroName, .statement .statements] = production := by
    simpa [Goal.production, statementProduction, hcall, hstatement, isOperator_of_behindMacro? hrest] using hp
  obtain ⟨more, hmore, hreads⟩ := h.exists_behindMacro? hrest
  have hl := hreads.loosened rfl horder.behind.behind.spelt
  refine (Option.any_eq_true _ _).2 ⟨more, hmore, ?_⟩
  rwa [hl.isName, hl.isWord]

/-! ## The end of a statement -/

/-- A semicolon ends the statement, and behind another character there are no braces. -/
theorem endsBraced_punct (trail : Trail) (c : Char) (spacing : Spacing) (tokens : List Token) :
    endsBraced trail (.punct c spacing :: tokens) =
      if c = ';' then decide (trail = .complete) else endsBraced .other tokens := by
  by_cases hc : c = ';'
  · subst hc
    rfl
  · rw [if_neg hc, endsBraced]
    · rfl
    · rintro _ heq
      exact hc (Token.punct.inj heq).1

/-- An operator ends a statement in any spacing, or none does. -/
theorem endsBraced_operatorTokens {cs : List Char} (hspelled : isSpelled cs tokens = true) (trail : Trail)
    (h : ∀ trail, endsBraced trail taken = endsBraced trail (tokens.drop cs.length)) :
    endsBraced trail (operatorTokens cs ++ taken) = endsBraced trail tokens := by
  induction cs generalizing tokens trail with
  | nil => exact h trail
  | cons c cs ih =>
    obtain ⟨spacing, others, rfl, -, hothers⟩ := exists_of_isSpelled hspelled
    have hbehind := ih hothers .other h
    cases cs with
    | nil => rw [operatorTokens, List.singleton_append, endsBraced_punct, endsBraced_punct, ← hbehind]; rfl
    | cons d cs =>
      have hjoined : operatorTokens (c :: d :: cs) = .punct c .joint :: operatorTokens (d :: cs) := rfl
      rw [hjoined, List.cons_append, endsBraced_punct, endsBraced_punct, hbehind]

/-- Behind the positions of tuple fields there are no braces. -/
theorem endsBraced_positionTokens {dotted : Bool} {positions : List Nat} (hne : positions ≠ []) (trail : Trail) :
    endsBraced trail (positionTokens dotted positions ++ taken) = endsBraced .other taken := by
  induction positions generalizing trail with
  | nil => exact absurd rfl hne
  | cons n ns ih =>
    cases ns with
    | nil => cases dotted <;> rfl
    | cons m ns => exact ih (List.cons_ne_nil m ns) .other

/-- A statement ends with braces behind an `else` if it did. -/
theorem Reads.endsBraced_eq {leftovers : Leftovers} {left : List Token}
    (h : Reads leftovers symbols found tokens taken last left) (hleft : left = []) (trail : Trail) :
    endsBraced trail taken = endsBraced trail tokens := by
  induction h generalizing trail with
  | nil =>
    subst hleft
    rfl
  | form _ ih | goal _ _ ih => exact ih hleft trail
  | @group delimiter _ _ _ _ _ _ _ _ _ _ _ _ _ _ _ ih => cases delimiter <;> exact ih hleft _
  | terminal ht _ ih =>
    have hrest := ih hleft
    cases takeTerminal?_eq_some_iff.1 ht with
    | @operator text _ hoperator =>
      rw [← String.length_toList] at hrest
      exact endsBraced_operatorTokens hoperator trail hrest
    | position hpath =>
      rw [endsBraced_positionTokens (Number.fieldPath?_ne_nil hpath)]
      exact hrest .other
    | @literal token _ hliteral =>
      cases token with
      | ident | literal => exact hrest _
      | punct | group => cases hliteral
    | @tree delimiter => cases delimiter <;> exact hrest _
    | word | name | lifetime => exact hrest _

/-! ## Items and expressions -/

/-- Where two colons stay behind `crate`, the same items begin. -/
theorem Loosened.startsItem {a b : List Token} (h : Loosened a b)
    (hcolons : Expression.isWord "crate" a = true →
      Expression.isOperator "::" (b.drop 1) = Expression.isOperator "::" (a.drop 1)) :
    startsItem b = startsItem a := by
  have hpath : (Expression.isWord "crate" a && !Expression.isOperator "::" (b.drop 1)) =
      (Expression.isWord "crate" a && !Expression.isOperator "::" (a.drop 1)) :=
    and_congr_ahead fun hcrate => congrArg (!·) (hcolons hcrate)
  cases hident : Expression.isIdent a with
  | false =>
    have hword : ∀ text, Expression.isWord text a = false := fun _ => isWord_eq_false_of_isIdent hident
    simp only [Expression.startsItem, h.isWordOf, h.isWord, hword, Bool.false_and]
  | true =>
    have hbehind := h.behind_ident hident
    have hasync : (Expression.isWord "async" (a.drop 1) &&
        !Expression.isWordOf ["unsafe", "extern", "fn"] ((b.drop 1).drop 1)) =
        (Expression.isWord "async" (a.drop 1) && !Expression.isWordOf ["unsafe", "extern", "fn"] ((a.drop 1).drop 1)) :=
      hbehind.and_behind isIdent_of_isWord fun h => congrArg (!·) (h.isWordOf _)
    rw [List.drop_drop, List.drop_drop] at hasync
    simp only [Expression.startsItem, h.isWordOf, h.isWord, hpath, hbehind.isWord, hbehind.isWordOf, hbehind.isName,
      hbehind.isGroup, hbehind.isOperator_of_length "|" rfl, hasync]

/-- Behind `crate`, the first name of a path, two colons are read as they stand. -/
theorem Reads.isOperator_colons_of_crate
    (h : Reads .refused (.statement .statement :: symbols) found (.ident "crate" :: rest) taken last [])
    (horder : InOrder opens (.statement .statement :: symbols))
    (hstatement : isMacroStatement (.ident "crate" :: rest) = false)
    (hitem : isMacroItem (.ident "crate" :: rest) = false) (hcolons : isOperator "::" rest = true) :
    isOperator "::" (taken.drop 1) = true := by
  obtain ⟨h, horder⟩ := h.replaced_inOrder horder [Symbol.statement .early, .statement .statementEnd] (by
    simp [Goal.production, statementProduction, hstatement, hitem, startsItem, isWord, isWordOf, hcolons, isOperator.eq_1 "#",
      isSpelled])
  obtain ⟨h, horder⟩ := h.replaced_inOrder horder [Symbol.expression] (by
    simp [Goal.production, statementProduction, startsBlock, isBinder, isWord, isWordOf, isGroup, isLifetime, isOperator,
      isSpelled])
  obtain ⟨h, horder⟩ := h.replaced_inOrder horder [Symbol.value (.operand true), .value (.operators .lowest true)] rfl
  obtain ⟨h, horder⟩ := h.replaced_inOrder horder [Symbol.value (.atom true), .value .trailers] (by
    simp [Goal.production, valueProduction, isTaggedRange, isOperator, isSpelled])
  obtain ⟨h, horder⟩ := h.replaced_inOrder horder [Symbol.path (.path .value), .value (.afterPath true)] (by
    simp [Goal.production, valueProduction, atomProduction, isLiteral, startsAsyncBlock, startsClosure, isBinder,
      startsPathOperand, startsPath, isName, isWord, isWordOf, isOperator, isSpelled])
  obtain ⟨more, rfl, hmore, -⟩ := h.exists_behind_segment horder
  exact hmore.trans hcolons

/-- The parts of a block have the same productions in the normal spacing. -/
theorem Reads.statementProduction_eq {goal : StatementGoal}
    (h : Reads .refused (.statement goal :: symbols) found tokens taken last [])
    (horder : InOrder opens (.statement goal :: symbols)) :
    statementProduction goal found taken = statementProduction goal found tokens := by
  have hl := h.loosened rfl horder.spelt
  have hinner : (isOperator "#" tokens && isOperator "!" (taken.drop 1)) =
      (isOperator "#" tokens && isOperator "!" (tokens.drop 1)) :=
    and_congr_ahead fun hmark => (hl.behind_operator 1 rfl hmark).isOperator_of_length "!" rfl
  cases goal with
  | body | matched => simp only [statementProduction, hl.isOperator_of_length "#" rfl, hinner]
  | statements | statementEnd => simp only [statementProduction, hl.isEmpty, hl.isOperator_of_length ";" rfl]
  | statement =>
    simp only [statementProduction, hl.isOperator_of_length "#" rfl, h.isMacroStatement_eq horder, hl.isWord]
    cases hstatement : isMacroStatement tokens with
    | true => rfl
    | false =>
      simp only [h.isMacroItem_eq horder hstatement]
      cases hmacro : isMacroItem tokens with
      | true => rfl
      | false =>
        have hitem : startsItem taken = startsItem tokens := hl.startsItem fun hcrate => by
          have hbehind := hl.behind_ident (isIdent_of_isWord hcrate)
          refine hbehind.isOperator_eq fun hcolons => ?_
          obtain ⟨_, rest, rfl⟩ := exists_of_isIdent (isIdent_of_isWord hcrate)
          obtain rfl := eq_of_beq hcrate
          exact h.isOperator_colons_of_crate horder hstatement hmacro hcolons
        simp only [hitem]
  | optionalSemicolon => simp only [statementProduction, hl.isOperator_of_length ";" rfl]
  | ascription => simp only [statementProduction, hl.isOperator_of_length ":" rfl]
  | initializer => simp only [statementProduction, hl.isOperator_of_length "=" rfl, h.endsBraced_eq rfl]
  | diverging _ | armGuard | tag => simp only [statementProduction, hl.isWord]
  | early => simp only [statementProduction, hl.isOperator_of_length "#" rfl, hl.startsBlock]
  | afterEarly => simp only [statementProduction, h.isDot horder, hl.isOperator_of_length "?" rfl]
  | arms => simp only [statementProduction, hl.isEmpty]
  | arm => simp only [statementProduction, hl.isOperator_of_length "#" rfl]
  | armEnd => simp only [statementProduction, hl.isEmpty, hl.isOperator_of_length "," rfl]
  | tagValue =>
    simp only [statementProduction, hl.isTree, hl.isOperator_of_length "=" rfl]
    cases hequal : isOperator "=" tokens with
    | false => rfl
    | true =>
      have hbehind := hl.behind_operator 1 rfl hequal
      have hnested : (isOperator "#" (tokens.drop 1) && isGroup .bracket (taken.drop 2)) =
          (isOperator "#" (tokens.drop 1) && isGroup .bracket (tokens.drop 2)) :=
        and_congr_ahead fun hmark => by
          have hlast : Loosened ((tokens.drop 1).drop 1) ((taken.drop 1).drop 1) := hbehind.behind_operator 1 rfl hmark
          rw [List.drop_drop, List.drop_drop] at hlast
          exact hlast.isGroup .bracket
      simp only [hbehind.isOperator_of_length "#" rfl, hnested]

end PrivateLog.Expression
