import PrivateLog.Proofs.Expression.Blocks

/-!
# Items in the normal spacing

The parts of an item have the same productions for the tokens that are read and for those that are taken
(`Reads.itemProduction_eq`). Nearly all that tells one item from another are words. Two colons are asked for in front of a path,
behind `self` and behind a name that may be a generic parameter, and in each place the path that is read takes them as a
whole.
-/

namespace PrivateLog.Expression

/-! ## Words that begin an item -/

namespace Loosened

variable {a b : List Token} (h : Loosened a b)
include h

/-- The same words restrict what is visible. -/
theorem isRestriction : isRestriction b = isRestriction a := by
  cases h with
  | @group delimiter x y _ _ hinner =>
    cases delimiter with
    | parenthesis =>
      have hword : (Expression.isWordOf ["crate", "self", "super"] x && (y.drop 1).isEmpty) =
          (Expression.isWordOf ["crate", "self", "super"] x && (x.drop 1).isEmpty) :=
        hinner.and_behind isIdent_of_isWordOf fun h => h.isEmpty
      simp only [Expression.isRestriction, hinner.isWord, hinner.isWordOf, hword]
    | _ => rfl
  | _ => rfl

/-- The same functions begin. -/
theorem startsFunction : startsFunction b = startsFunction a := by
  have hbehind : (Expression.isWordOf ["const", "unsafe"] a &&
      Expression.isWordOf ["fn", "async", "unsafe", "extern"] (b.drop 1)) =
      (Expression.isWordOf ["const", "unsafe"] a && Expression.isWordOf ["fn", "async", "unsafe", "extern"] (a.drop 1)) :=
    h.and_behind isIdent_of_isWordOf fun h => h.isWordOf _
  simp only [Expression.startsFunction, h.isWordOf, hbehind]

/-- The same static variables begin. -/
theorem startsForeignStatic : startsForeignStatic b = startsForeignStatic a := by
  have hbehind : (Expression.isWordOf ["unsafe", "safe"] a && Expression.isWord "static" (b.drop 1)) =
      (Expression.isWordOf ["unsafe", "safe"] a && Expression.isWord "static" (a.drop 1)) :=
    h.and_behind isIdent_of_isWordOf fun h => h.isWord _
  simp only [Expression.startsForeignStatic, h.isWord, h.isWordOf, hbehind]

/-- Where two colons stay, the same paths of macros begin. -/
theorem startsMacro (hcolons : Expression.isOperator "::" b = Expression.isOperator "::" a) :
    startsMacro b = startsMacro a := by
  simp only [Expression.startsMacro, h.isName, h.isWordOf, hcolons]

/-- Where two colons stay behind `self`, the same methods' inputs begin. -/
theorem isReceiver (hcolons : Expression.isWord "self" a = true →
    Expression.isOperator "::" (b.drop 1) = Expression.isOperator "::" (a.drop 1)) : isReceiver b = isReceiver a := by
  have hself : (Expression.isWord "self" a && !Expression.isOperator "::" (b.drop 1)) =
      (Expression.isWord "self" a && !Expression.isOperator "::" (a.drop 1)) :=
    and_congr_ahead fun hword => congrArg (!·) (hcolons hword)
  have hmut : ∀ {a b : List Token}, Loosened a b →
      (Expression.isWord "mut" a && Expression.isWord "self" (b.drop 1)) =
        (Expression.isWord "mut" a && Expression.isWord "self" (a.drop 1)) := fun h =>
    h.and_behind isIdent_of_isWord fun h => h.isWord "self"
  have hborrowed : (Expression.isOperator "&" a &&
      (Expression.isWord "self" (b.drop 1) || (Expression.isWord "mut" (b.drop 1) && Expression.isWord "self" (b.drop 2)) ||
        (Expression.isLifetime (b.drop 1) &&
          (Expression.isWord "self" (b.drop 3) ||
            (Expression.isWord "mut" (b.drop 3) && Expression.isWord "self" (b.drop 4)))))) =
      (Expression.isOperator "&" a &&
        (Expression.isWord "self" (a.drop 1) || (Expression.isWord "mut" (a.drop 1) && Expression.isWord "self" (a.drop 2)) ||
          (Expression.isLifetime (a.drop 1) &&
            (Expression.isWord "self" (a.drop 3) ||
              (Expression.isWord "mut" (a.drop 3) && Expression.isWord "self" (a.drop 4)))))) := by
    refine and_congr_ahead fun hand => ?_
    have hbehind := h.behind_operator 1 rfl hand
    have hsecond := hmut hbehind
    rw [List.drop_drop, List.drop_drop] at hsecond
    rw [hbehind.isWord, hbehind.isWord, hbehind.isLifetime, hsecond]
    refine congrArg _ (and_congr_ahead fun hlifetime => ?_)
    have hlast := hbehind.behind_lifetime hlifetime
    have hfourth := hmut hlast
    simp only [List.drop_drop, Nat.reduceAdd] at hlast hfourth
    rw [hlast.isWord, hlast.isWord, hfourth]
  simp only [Expression.isReceiver, h.isWord, h.isOperator_of_length "&" rfl, hself, hmut h, hborrowed]

/-- Where two colons stay, a generic parameter ends where it ended. -/
theorem endsParameterName (hcolons : Expression.isOperator "::" b = Expression.isOperator "::" a) :
    endsParameterName b = endsParameterName a := by
  have hmarks : Expression.isOperatorOf [">", ",", "="] b = Expression.isOperatorOf [">", ",", "="] a :=
    h.isOperatorOf_of_length (by decide)
  rw [Expression.endsParameterName, Expression.endsParameterName, hmarks, isColon, isColon, hcolons,
    h.isOperator_of_length ":" rfl]

end Loosened

variable {symbols : List Symbol} {found last : Form} {tokens taken rest more : List Token} {opens : Bool}

/-! ## Two colons -/

/-- Behind `self`, where it is the first name of a path, two colons are read as they stand. -/
theorem Reads.isReceiver_eq {first : Bool}
    (h : Reads .refused (.item (.someInputs first) :: symbols) found tokens taken last [])
    (horder : InOrder opens (.item (.someInputs first) :: symbols)) : isReceiver taken = isReceiver tokens := by
  have hl := h.loosened rfl horder.spelt
  refine hl.isReceiver fun hself => (hl.behind_ident (isIdent_of_isWord hself)).isOperator_eq fun hcolons => ?_
  obtain ⟨_, rest, rfl⟩ := exists_of_isIdent (isIdent_of_isWord hself)
  obtain rfl := eq_of_beq hself
  rw [List.drop_succ_cons, List.drop_zero] at hcolons
  obtain ⟨h, horder⟩ := h.replaced_inOrder horder [Symbol.pattern .single, .operator ":", .item .inputType] (by
    simp [Goal.production, itemProduction, isReceiver, hcolons, isName, isNameText, reserved, isWord, isOperator.eq_1 "#",
      isOperator.eq_1 "...", isOperator.eq_1 "&", isSpelled])
  have hpath : startsPathPattern (.ident "self" :: rest) = true := by
    simp [startsPathPattern, isWord, hcolons]
  obtain ⟨more, rfl, hmore, -⟩ := h.exists_behind_pattern horder hpath
  exact hmore.trans hcolons

/-- Two colons in front of the path of a macro are read as they stand. -/
theorem Reads.isOperator_colons_of_names (h : Reads .refused (.path .names :: symbols) found tokens taken last [])
    (hcolons : isOperator "::" tokens = true) : isOperator "::" taken = true :=
  h.isOperator_of_first (by simp [Goal.first?, Goal.production, pathProduction, hcolons])

/-- So the same paths of macros begin where an item is declared, -/
theorem Reads.startsMacro_of_declaration {marked : Bool}
    (h : Reads .refused (.item (.declaration .plain marked) :: symbols) found tokens taken last [])
    (horder : InOrder opens (.item (.declaration .plain marked) :: symbols)) :
    startsMacro taken = startsMacro tokens := by
  have hl := h.loosened rfl horder.spelt
  refine hl.startsMacro (hl.isOperator_eq fun hcolons => ?_)
  obtain ⟨spacing, rest, rfl⟩ := exists_of_colons hcolons
  obtain ⟨production, hp, h⟩ := h.of_goal
  obtain ⟨-, rfl⟩ : marked = false ∧ [Symbol.path .names, .operator "!", .item .macroName] = production := by
    simpa [Goal.production, itemProduction, declarationProduction, startsFunction, startsMacro, isWord, isWordOf, hcolons]
      using hp
  exact h.isOperator_colons_of_names hcolons

/-- and where it is associated with another one. -/
theorem Reads.startsMacro_of_associated {surroundings : Surroundings} {marked : Bool}
    (h : Reads .refused (.item (.associated surroundings marked) :: symbols) found tokens taken last [])
    (horder : InOrder opens (.item (.associated surroundings marked) :: symbols)) :
    startsMacro taken = startsMacro tokens := by
  have hl := h.loosened rfl horder.spelt
  refine hl.startsMacro (hl.isOperator_eq fun hcolons => ?_)
  obtain ⟨spacing, rest, rfl⟩ := exists_of_colons hcolons
  obtain ⟨production, hp, h⟩ := h.of_goal
  obtain ⟨-, rfl⟩ : marked = false ∧ [Symbol.path .names, .operator "!", .item .macroTokens] = production := by
    simpa [Goal.production, itemProduction, associatedProduction, startsFunction, startsForeignStatic, startsMacro, isWord,
      isWordOf, hcolons] using hp
  exact h.isOperator_colons_of_names hcolons

/-- Where an implementation has no generic parameters, an angle bracket begins its type. -/
theorem Reads.exists_type_of_implementation
    (h : Reads .refused (.item .implementation :: symbols) found (.ident "impl" :: tokens) taken last [])
    (horder : InOrder opens (.item .implementation :: symbols)) (hless : isOperator "<" tokens = true)
    (hgenerics : startsGenerics tokens = false) :
    ∃ next found more, taken = .ident "impl" :: .punct '<' .alone :: more ∧
      Reads .refused (.type (.type true) :: next) found (tokens.drop 1) more last [] ∧
      InOrder true (.type (.type true) :: next) := by
  obtain ⟨spacing, rest, rfl⟩ : ∃ spacing rest, tokens = .punct '<' spacing :: rest := by
    have hspelling : "<".toList = ['<'] := rfl
    rw [isOperator, hspelling] at hless
    obtain ⟨spacing, rest, rfl, -, -⟩ := exists_of_isSpelled hless
    exact ⟨spacing, rest, rfl⟩
  obtain ⟨h, horder⟩ := h.replaced_inOrder horder [Symbol.word "impl", .item .implementationTarget] (by
    simp [Goal.production, itemProduction, hgenerics])
  obtain ⟨_, more, heq, rfl, h⟩ := h.of_word
  cases heq
  have horder := horder.behind
  obtain ⟨h, horder⟩ := h.replaced_inOrder horder [Symbol.item .implementationType] (by
    simp [Goal.production, itemProduction, isWord, isOperator, isSpelled])
  obtain ⟨h, horder⟩ := h.replaced_inOrder horder [Symbol.type (.type true), .item .implementationFor] (by
    simp [Goal.production, itemProduction, isOperator, isSpelled])
  obtain ⟨h, horder⟩ := h.replaced_inOrder horder [Symbol.path (.path .type), .type (.named true)] (by
    simp [Goal.production, typeProduction, startsPath, isOperatorOf, isGroup, isWord, isWordOf, isOperator, isSpelled])
  obtain ⟨h, horder⟩ := h.replaced_inOrder horder
    [Symbol.operator "<", .type (.type true), .path .qualifier, .operator ">", .operator "::", .path (.segments .type),
      .form .plain] (by
      simp [Goal.production, pathProduction, isOperator, isSpelled])
  obtain ⟨-, more, rfl, hreads⟩ := h.of_operator
  exact ⟨_, _, more, rfl, hreads, horder.behind⟩

/-- A lifetime alone is no type. -/
theorem Reads.isOperator_plus_of_type {plus : Bool}
    (h : Reads .refused (.type (.type plus) :: symbols) found tokens taken last []) (hlifetime : isLifetime tokens = true) :
    isOperator "+" (tokens.drop 2) = true := by
  obtain ⟨name, rest, rfl⟩ := exists_of_isLifetime hlifetime
  have h := h.replaced [Symbol.type (.bounds .object true)] (by
    simp [Goal.production, typeProduction, startsPath, isOperatorOf, isName, isGroup, isWord, isWordOf, isLifetime,
      isOperator, isSpelled])
  have h := h.replaced [Symbol.lifetime, .operator "+", .type (.bounds .object true)] (by
    simp [Goal.production, typeProduction, isLifetime])
  obtain ⟨_, _, _, heq, -, h⟩ := h.of_lifetime
  cases heq
  exact h.of_operator.1

/-- No generic parameter ends at two colons. -/
theorem endsParameterName_of_colons (h : isOperator "::" tokens = true) : endsParameterName tokens = false := by
  obtain ⟨spacing, rest, rfl⟩ := exists_of_colons h
  simp [endsParameterName, isColon, isOperatorOf, h, isOperator.eq_1 ">", isOperator.eq_1 ",", isOperator.eq_1 "=", isSpelled]

/-- The same generic parameters begin behind `impl`. -/
theorem Reads.startsGenerics_eq
    (h : Reads .refused (.item .implementation :: symbols) found (.ident "impl" :: tokens) (.ident "impl" :: taken) last [])
    (horder : InOrder opens (.item .implementation :: symbols)) (hl : Loosened tokens taken) :
    startsGenerics taken = startsGenerics tokens := by
  cases hless : isOperator "<" tokens with
  | false => rw [startsGenerics, startsGenerics, hl.isOperator_of_length "<" rfl, hless, Bool.false_and, Bool.false_and]
  | true =>
    have hbehind := hl.behind_operator 1 rfl hless
    have hlifetime : (isLifetime (tokens.drop 1) && endsParameterName (taken.drop 3)) =
        (isLifetime (tokens.drop 1) && endsParameterName (tokens.drop 3)) := by
      refine and_congr_ahead fun hlifetime => ?_
      have hlast := hbehind.behind_lifetime hlifetime
      rw [List.drop_drop, List.drop_drop] at hlast
      refine hlast.endsParameterName (hlast.isOperator_eq fun hcolons => ?_)
      -- a lifetime in front of two colons would be a type
      have hgenerics : startsGenerics tokens = false := by
        obtain ⟨name, rest, heq⟩ := exists_of_isLifetime hlifetime
        have hends : endsParameterName (tokens.drop 3) = false := endsParameterName_of_colons hcolons
        simp [startsGenerics, heq, hends, isOperatorOf, isWord, isName, isOperator, isSpelled]
      obtain ⟨_, _, _, -, hreads, -⟩ := h.exists_type_of_implementation horder hless hgenerics
      have hplus := hreads.isOperator_plus_of_type hlifetime
      rw [List.drop_drop] at hplus
      obtain ⟨spacing, rest, heq⟩ := exists_of_colons hcolons
      rw [heq] at hplus
      cases hplus
    have hname : (isName (tokens.drop 1) && endsParameterName (taken.drop 2)) =
        (isName (tokens.drop 1) && endsParameterName (tokens.drop 2)) := by
      refine and_congr_ahead fun hname => ?_
      have hlast := hbehind.behind_ident (isIdent_of_isName hname)
      rw [List.drop_drop, List.drop_drop] at hlast
      refine hlast.endsParameterName (hlast.isOperator_eq fun hcolons => ?_)
      -- a name in front of two colons begins a path
      have hgenerics : startsGenerics tokens = false := by
        have hconst := isWord_eq_false_of_isName "const" rfl hname
        obtain ⟨name, rest, heq⟩ := exists_of_isIdent (isIdent_of_isName hname)
        have hends : endsParameterName (tokens.drop 2) = false := endsParameterName_of_colons hcolons
        rw [heq] at hconst
        simp [startsGenerics, heq, hends, hconst, isOperatorOf, isLifetime, isOperator, isSpelled]
      obtain ⟨_, _, more, heq, hreads, horder⟩ := h.exists_type_of_implementation horder hless hgenerics
      cases heq
      obtain ⟨name, rest, heq⟩ := exists_of_isIdent (isIdent_of_isName hname)
      rw [heq] at hreads hname
      obtain ⟨_, rfl, hmore⟩ := hreads.isOperator_colons_behind_type horder (Or.inl hname)
      have hrest : tokens.drop 2 = rest := by
        rw [show tokens.drop 2 = (tokens.drop 1).drop 1 by rw [List.drop_drop], heq]
        rfl
      rw [hrest] at hcolons
      exact hmore.trans hcolons
    have hmarks : isOperatorOf [">", "#"] (taken.drop 1) = isOperatorOf [">", "#"] (tokens.drop 1) :=
      hbehind.isOperatorOf_of_length (by decide)
    simp only [startsGenerics, hl.isOperator_of_length "<" rfl, hmarks, hbehind.isWord, hbehind.isLifetime, hbehind.isName,
      hlifetime, hname]

/-! ## Productions -/

/-- An item of its own has the same production in the normal spacing, -/
theorem Reads.declarationProduction_eq {marked : Bool}
    (h : Reads .refused (.item (.declaration .plain marked) :: symbols) found tokens taken last [])
    (horder : InOrder opens (.item (.declaration .plain marked) :: symbols)) :
    declarationProduction marked taken = declarationProduction marked tokens := by
  have hl := h.loosened rfl horder.spelt
  have hmacro := h.startsMacro_of_declaration horder
  cases hident : isIdent tokens with
  | true =>
    have hbehind := hl.behind_ident hident
    simp only [declarationProduction, hl.isWord, hl.startsFunction, hmacro, hbehind.isWord, hbehind.isName,
      hbehind.isOperator_of_length "!" rfl]
  | false =>
    have hword : ∀ text, isWord text tokens = false := fun _ => isWord_eq_false_of_isIdent hident
    simp only [declarationProduction, hl.isWord, hl.startsFunction, hmacro, hword, Bool.false_and, Bool.false_eq_true,
      if_false]

/-- and so has one that is associated with another. -/
theorem Reads.associatedProduction_eq {surroundings : Surroundings} {marked : Bool}
    (h : Reads .refused (.item (.associated surroundings marked) :: symbols) found tokens taken last [])
    (horder : InOrder opens (.item (.associated surroundings marked) :: symbols)) :
    associatedProduction surroundings marked taken = associatedProduction surroundings marked tokens := by
  have hl := h.loosened rfl horder.spelt
  have hsafe : (decide (surroundings = .foreign) && isWord "safe" tokens && isWordOf ["fn", "extern"] (taken.drop 1)) =
      (decide (surroundings = .foreign) && isWord "safe" tokens && isWordOf ["fn", "extern"] (tokens.drop 1)) :=
    hl.and_behind (fun hfront => isIdent_of_isWord (Bool.and_eq_true_iff.1 hfront).2) fun h => h.isWordOf _
  simp only [associatedProduction, hl.startsForeignStatic, hl.isWord, hl.startsFunction, hsafe,
    h.startsMacro_of_associated horder]

/-- The parts of an item have the same productions in the normal spacing. -/
theorem Reads.itemProduction_eq {goal : ItemGoal} (h : Reads .refused (.item goal :: symbols) found tokens taken last [])
    (horder : InOrder opens (.item goal :: symbols)) : itemProduction goal taken = itemProduction goal tokens := by
  have hl := h.loosened rfl horder.spelt
  cases goal with
  | body surroundings =>
    have hinner : (isOperator "#" tokens && isOperator "!" (taken.drop 1)) =
        (isOperator "#" tokens && isOperator "!" (tokens.drop 1)) :=
      and_congr_ahead fun hmark => (hl.behind_operator 1 rfl hmark).isOperator_of_length "!" rfl
    simp only [itemProduction, hl.isOperator_of_length "#" rfl, hinner]
  | item surroundings => simp only [itemProduction, hl.isOperator_of_length "#" rfl, hl.isWord]
  | declaration surroundings marked =>
    have hdefault : (isWord "default" tokens && !isOperator "!" (taken.drop 1)) =
        (isWord "default" tokens && !isOperator "!" (tokens.drop 1)) :=
      hl.and_behind isIdent_of_isWord fun h => congrArg (!·) (h.isOperator_of_length "!" rfl)
    cases surroundings with
    | plain => exact h.declarationProduction_eq horder
    | trait | implementation => simp only [itemProduction, hl.isWord, hdefault]
    | foreign => rfl
  | associated surroundings marked => exact h.associatedProduction_eq horder
  | visibility | unnamedField =>
    simp only [itemProduction, hl.isOperator_of_length "#" rfl, hl.isWord]
    cases hpub : isWord "pub" tokens with
    | true => simp only [(hl.behind_ident (isIdent_of_isWord hpub)).isRestriction]
    | false => simp only [Bool.false_eq_true, if_false]
  | signature safe => simp only [itemProduction, hl.wordsAhead]
  | someInputs first =>
    have hdots : isOperator "..." taken = isOperator "..." tokens := hl.isOperator_eq fun hdots => by
      have hspelling : "...".toList = ['.', '.', '.'] := rfl
      obtain ⟨spacing, rest, rfl⟩ := exists_of_three_dots hspelling hdots
      exact h.isOperator_of_first (by simp [Goal.first?, Goal.production, itemProduction, isOperator, isSpelled])
    have hless : (isName tokens && isOperator "<" (taken.drop 1)) = (isName tokens && isOperator "<" (tokens.drop 1)) :=
      hl.and_behind isIdent_of_isName fun h => h.isOperator_of_length "<" rfl
    simp only [itemProduction, hl.isOperator_of_length "#" rfl, hdots, h.isReceiver_eq horder, hl.isName, hless]
  | inputType =>
    have hdots : isOperator "..." taken = isOperator "..." tokens := hl.isOperator_eq fun hdots =>
      h.isOperator_of_first (by simp [Goal.first?, Goal.production, itemProduction, hdots])
    simp only [itemProduction, hdots]
  | parameter =>
    simp only [itemProduction, hl.isOperator_of_length "#" rfl, hl.isLifetime, hl.isWord]
  | predicates =>
    have hmarks : isOperatorOf [";", "="] taken = isOperatorOf [";", "="] tokens := hl.isOperatorOf_of_length (by decide)
    simp only [itemProduction, hl.isGroup, hmarks]
  | predicate =>
    have hlifetime : (isLifetime tokens && isOperator ":" (taken.drop 2)) =
        (isLifetime tokens && isOperator ":" (tokens.drop 2)) :=
      and_congr_ahead fun hlifetime => (hl.behind_lifetime hlifetime).isOperator_of_length ":" rfl
    simp only [itemProduction, hl.isLifetime, hlifetime, hl.isWord]
  | importRoot | importRest =>
    have hcolons : isOperator "::" taken = isOperator "::" tokens := hl.isOperator_eq fun hcolons =>
      h.isOperator_of_first (by simp [Goal.first?, Goal.production, itemProduction, hcolons])
    simp only [itemProduction, hcolons, hl.isWord]
  | importTree root =>
    simp only [itemProduction, hl.isGroup, hl.isOperator_of_length "*" rfl]
    cases hl <;> rfl
  | importTrees root =>
    have hcolons : (root && isOperator "::" taken) = (root && isOperator "::" tokens) :=
      and_congr_ahead fun hroot => hl.isOperator_eq fun hcolons => by
        obtain ⟨spacing, rest, rfl⟩ := exists_of_colons hcolons
        exact h.isOperator_of_first (by simp [Goal.first?, Goal.production, itemProduction, hroot, hcolons])
    simp only [itemProduction, hl.isEmpty, hcolons]
  | fieldType =>
    have hunion : (isWord "union" tokens && isGroup .brace (taken.drop 1)) =
        (isWord "union" tokens && isGroup .brace (tokens.drop 1)) :=
      hl.and_behind isIdent_of_isWord fun h => h.isGroup .brace
    simp only [itemProduction, hl.isWord, hunion]
  | implementation =>
    have hword : isWord "impl" tokens = true := by
      obtain ⟨production, hp, h⟩ := h.of_goal
      simp only [Goal.production, itemProduction] at hp
      split_ifs at hp <;> cases hp <;> obtain ⟨_, _, rfl, -⟩ := h.of_word <;> rfl
    cases hl with
    | ident hab =>
      obtain rfl := eq_of_beq hword
      simp only [itemProduction, List.drop_succ_cons, List.drop_zero, h.startsGenerics_eq horder hab]
    | _ => cases hword
  | implementationTarget =>
    have hconst : (isOperator "?" tokens && isWord "const" (taken.drop 1)) =
        (isOperator "?" tokens && isWord "const" (tokens.drop 1)) :=
      and_congr_ahead fun hmark => (hl.behind_operator 1 rfl hmark).isWord "const"
    simp only [itemProduction, hl.isWord, hl.isOperator_of_length "?" rfl, hconst]
  | implementationType =>
    have hbraces : (isOperator "!" tokens && !isGroup .brace (taken.drop 1)) =
        (isOperator "!" tokens && !isGroup .brace (tokens.drop 1)) :=
      and_congr_ahead fun hmark => congrArg (!·) ((hl.behind_operator 1 rfl hmark).isGroup .brace)
    simp only [itemProduction, hl.isOperator_of_length "!" rfl, hbraces]
  | macroBody =>
    cases hl with
    | group _ hab =>
      simp only [itemProduction, List.drop_succ_cons, List.drop_zero, hab.isGroup]
      rfl
    | _ => rfl
  | header | bounded | constantType | trait | implementationBody | macroRule => rfl
  | items | inputs | moreInputs | moreImportTrees | namedFields | moreNamedFields | unnamedFields
  | moreUnnamedFields | variants | moreVariants => simp only [itemProduction, hl.isEmpty]
  | _ =>
    simp only [itemProduction, hl.isWord, hl.isName, hl.isLifetime, hl.isGroup, hl.isOperator_of_length "#" rfl,
      hl.isOperator_of_length ";" rfl, hl.isOperator_of_length "&" rfl, hl.isOperator_of_length "<" rfl,
      hl.isOperator_of_length ">" rfl, hl.isOperator_of_length ":" rfl, hl.isOperator_of_length "+" rfl,
      hl.isOperator_of_length "=" rfl, hl.isOperator_of_length "," rfl]

end PrivateLog.Expression
