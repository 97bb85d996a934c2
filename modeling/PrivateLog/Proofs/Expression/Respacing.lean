import PrivateLog.Proofs.Expression.Joining

/-!
# Productions in the normal spacing

A production is settled by the tokens ahead, and what is taken are these tokens loosened. Where a question about them could be
answered otherwise for the loosened ones, it asks for an operator of several characters, and this is either one that stays
joined whatever is read, or the production that it leads to takes it as a whole. So the parts of paths, types and patterns have
the same productions for the tokens that are read and for those that are taken (`Reads.pathProduction_eq`,
`Reads.typeProduction_eq`, `Reads.patternProduction_eq`).
-/

namespace PrivateLog.Expression

/-! ## Stepping -/

section
variable {leftovers : Leftovers} {symbols : List Symbol} {found last : Form} {tokens taken left : List Token}

/-- A word is read by taking it, -/
theorem Reads.of_word {text : String} (h : Reads leftovers (.word text :: symbols) found tokens taken last left) :
    ∃ rest more, tokens = .ident text :: rest ∧ taken = .ident text :: more ∧
      Reads leftovers symbols found rest more last left := by
  cases h with
  | terminal ht h =>
    cases takeTerminal?_eq_some_iff.1 ht with
    | word => exact ⟨_, _, rfl, rfl, h⟩

/-- and so is a name. -/
theorem Reads.of_name (h : Reads leftovers (.name :: symbols) found tokens taken last left) :
    ∃ name rest more, tokens = .ident name :: rest ∧ taken = .ident name :: more ∧
      Reads leftovers symbols found rest more last left := by
  cases h with
  | terminal ht h =>
    cases takeTerminal?_eq_some_iff.1 ht with
    | name => exact ⟨_, _, _, rfl, rfl, h⟩

/-- In front of a colon an underscore is read as well as a name. -/
theorem Reads.of_nameOrUnderscore {name : String} {rest : List Token}
    (h : Reads leftovers (nameOrUnderscore tokens :: symbols) found (.ident name :: rest) taken last left) :
    ∃ more, taken = .ident name :: more ∧ Reads leftovers symbols found rest more last left := by
  rcases nameOrUnderscore_eq tokens with hname | hname <;> rw [hname] at h
  · obtain ⟨_, more, heq, rfl, h⟩ := h.of_word
    cases heq
    exact ⟨more, rfl, h⟩
  · obtain ⟨_, _, more, heq, rfl, h⟩ := h.of_name
    cases heq
    exact ⟨more, rfl, h⟩

/-- A lifetime is read by taking both of its tokens. -/
theorem Reads.of_lifetime (h : Reads leftovers (.lifetime :: symbols) found tokens taken last left) :
    ∃ name rest more, tokens = .punct '\'' .joint :: .ident name :: rest ∧
      taken = .punct '\'' .joint :: .ident name :: more ∧ Reads leftovers symbols found rest more last left := by
  cases h with
  | terminal ht h =>
    cases takeTerminal?_eq_some_iff.1 ht with
    | lifetime => exact ⟨_, _, _, rfl, rfl, h⟩

/-- A group that is left as it is is taken. -/
theorem Reads.of_tree (h : Reads leftovers (.tree :: symbols) found tokens taken last left) :
    ∃ delimiter body rest more, tokens = .group delimiter body :: rest ∧ taken = .group delimiter body :: more ∧
      Reads leftovers symbols found rest more last left := by
  cases h with
  | terminal ht h =>
    cases takeTerminal?_eq_some_iff.1 ht with
    | tree => exact ⟨_, _, _, _, rfl, rfl, h⟩

/-- The symbol that the production of a goal begins with. -/
def Goal.first? (goal : Goal) (found : Form) (tokens : List Token) : Option Symbol :=
  (goal.production found tokens).bind List.head?

/-- A goal is read by reading what its production begins with. -/
theorem Reads.of_first {goal : Goal} {symbol : Symbol} (hfirst : goal.first? found tokens = some symbol)
    (h : Reads leftovers (.goal goal :: symbols) found tokens taken last left) :
    ∃ others, goal.production found tokens = some (symbol :: others) ∧
      Reads leftovers (symbol :: others ++ symbols) found tokens taken last left := by
  obtain ⟨production, hp, h⟩ := h.of_goal
  rw [Goal.first?, hp, Option.bind_some] at hfirst
  obtain ⟨others, rfl⟩ := List.head?_eq_some_iff.1 hfirst
  exact ⟨others, hp, h⟩

/-- An operator that is read first is ahead in its normal spacing. -/
theorem Reads.isOperator_of_first {goal : Goal} {text : String} (hfirst : goal.first? found tokens = some (.operator text))
    (h : Reads leftovers (.goal goal :: symbols) found tokens taken last left) : isOperator text taken = true := by
  obtain ⟨_, -, h⟩ := h.of_first hfirst
  obtain ⟨-, more, rfl, -⟩ := h.of_operator
  exact isSpelled_operatorTokens_append _ _

/-- The position of a field is read from a literal. -/
theorem Reads.of_position (h : Reads leftovers (.position :: symbols) found tokens taken last left) :
    ∃ text rest positions dotted more, tokens = .literal text :: rest ∧
      Number.fieldPath? text.toList = some (positions, dotted) ∧ taken = positionTokens dotted positions ++ more ∧
      Reads leftovers symbols found rest more last left := by
  cases h with
  | terminal ht h =>
    cases takeTerminal?_eq_some_iff.1 ht with
    | position hpath => exact ⟨_, _, _, _, _, rfl, hpath, rfl, h⟩

end

variable {symbols : List Symbol} {found last : Form} {tokens taken : List Token} {opens : Bool}

/-! ## Two colons and three dots -/

/-- Two colons are two tokens. -/
theorem exists_of_colons (h : isOperator "::" tokens = true) :
    ∃ spacing rest, tokens = .punct ':' .joint :: .punct ':' spacing :: rest := by
  have hcolons : "::".toList = [':', ':'] := rfl
  exact exists_of_isOperator_pair hcolons h

/-- An operator of three characters that begins with two dots is three tokens. -/
theorem exists_of_three_dots {text : String} {c : Char} (htext : text.toList = ['.', '.', c])
    (h : isOperator text tokens = true) :
    ∃ spacing rest, tokens = .punct '.' .joint :: .punct '.' .joint :: .punct c spacing :: rest := by
  rw [isOperator, htext] at h
  obtain ⟨_, _, rfl, hfirst, hbehind⟩ := exists_of_isSpelled h
  obtain rfl := hfirst (List.cons_ne_nil _ _)
  obtain ⟨_, _, rfl, hsecond, hlast⟩ := exists_of_isSpelled hbehind
  obtain rfl := hsecond (List.cons_ne_nil _ _)
  obtain ⟨spacing, rest, rfl, -, -⟩ := exists_of_isSpelled hlast
  exact ⟨spacing, rest, rfl⟩

/-- A path may begin with two colons, -/
theorem Reads.isOperator_colons_of_path {style : PathStyle}
    (h : Reads .refused (.path (.path style) :: symbols) found tokens taken last [])
    (hcolons : isOperator "::" tokens = true) : isOperator "::" taken = true := by
  obtain ⟨spacing, rest, rfl⟩ := exists_of_colons hcolons
  refine h.isOperator_of_first ?_
  simp [Goal.first?, Goal.production, pathProduction, isOperator, isSpelled]

/-- and go on with them. Where it does not, in front of a parenthesis, nothing else takes only one of them. -/
theorem Reads.isOperator_colons_of_moreSegments {style : PathStyle}
    (h : Reads .refused (.path (.moreSegments style) :: symbols) found tokens taken last [])
    (horder : InOrder opens (.path (.moreSegments style) :: symbols)) :
    isOperator "::" taken = isOperator "::" tokens := by
  refine (h.loosened rfl horder.spelt).isOperator_eq fun hcolons => ?_
  cases hgroup : isGroup .parenthesis (tokens.drop 2) with
  | true => exact h.isOperator_colons horder hcolons hgroup
  | false =>
    refine h.isOperator_of_first ?_
    simp [Goal.first?, Goal.production, pathProduction, hcolons, hgroup]

/-- So it does behind the arguments of a segment. -/
theorem Reads.isOperator_colons_of_arguments {style : PathStyle}
    (h : Reads .refused (.path (.arguments style) :: .path (.moreSegments style) :: symbols) found tokens taken last [])
    (horder : InOrder opens (.path (.arguments style) :: .path (.moreSegments style) :: symbols)) :
    isOperator "::" taken = isOperator "::" tokens := by
  refine (h.loosened rfl horder.spelt).isOperator_eq fun hcolons => ?_
  cases hgroup : isGroup .parenthesis (tokens.drop 2) with
  | true => exact h.isOperator_colons horder hcolons hgroup
  | false =>
    cases hless : isOperator "<" (tokens.drop 2) with
    | true =>
      refine h.isOperator_of_first ?_
      simp [Goal.first?, Goal.production, pathProduction, hcolons, hless]
    | false =>
      -- The segment has no arguments, and the path goes on.
      obtain ⟨spacing, rest, rfl⟩ := exists_of_colons hcolons
      have hfirst : isOperator "<" (.punct ':' .joint :: .punct ':' spacing :: rest) = false := rfl
      rw [List.drop_succ_cons, List.drop_succ_cons, List.drop_zero] at hless hgroup
      obtain ⟨h, horder⟩ := h.replaced_inOrder horder [] (by
        simp [Goal.production, pathProduction, hless, hfirst, hgroup, isGroup.eq_2])
      rw [h.isOperator_colons_of_moreSegments horder]
      exact hcolons

/-- Behind the first name of a path two colons and two dots are read as they stand. -/
theorem Reads.exists_behind_segment {style : PathStyle} {name : String} {rest : List Token}
    (h : Reads .refused (.path (.path style) :: symbols) found (.ident name :: rest) taken last [])
    (horder : InOrder opens (.path (.path style) :: symbols)) :
    ∃ more, taken = .ident name :: more ∧ isOperator "::" more = isOperator "::" rest ∧
      isOperator ".." more = isOperator ".." rest := by
  obtain ⟨h, horder⟩ := h.replaced_inOrder horder [Symbol.form .bare, .path (.segments style)] (by
    simp [Goal.production, pathProduction, isOperator, isSpelled])
  have h := h.of_form
  have horder := horder.behind
  obtain ⟨h, horder⟩ := h.replaced_inOrder horder [Symbol.path (.segment style), .path (.moreSegments style)] rfl
  obtain ⟨production, hp, h⟩ := h.of_goal
  have horder := horder.production hp
  simp only [Goal.production, pathProduction] at hp
  split_ifs at hp
  · cases hp
    obtain ⟨_, more, heq, rfl, h⟩ := h.of_word
    cases heq
    exact ⟨more, rfl, h.isOperator_colons_of_moreSegments horder.behind, h.isOperator_dots horder.behind⟩
  · cases hp
    obtain ⟨_, more, heq, rfl, h⟩ := h.of_word
    cases heq
    exact ⟨more, rfl, h.isOperator_colons_of_arguments horder.behind, h.isOperator_dots horder.behind⟩
  · cases hp
    obtain ⟨_, _, more, heq, rfl, h⟩ := h.of_name
    cases heq
    exact ⟨more, rfl, h.isOperator_colons_of_arguments horder.behind, h.isOperator_dots horder.behind⟩

/-! ## Paths -/

/-- Where two colons stay, the same paths begin. -/
theorem Loosened.startsPath {a b : List Token} (h : Loosened a b)
    (hcolons : Expression.isOperator "::" b = Expression.isOperator "::" a) : startsPath b = startsPath a := by
  simp only [Expression.startsPath, Expression.isOperatorOf, List.any_cons, List.any_nil, hcolons,
    h.isOperator_of_length "<" rfl, h.isName, h.isWordOf]

/-- The parts of a path have the same productions in the normal spacing. -/
theorem Reads.pathProduction_eq {goal : PathGoal} (h : Reads .refused (.path goal :: symbols) found tokens taken last [])
    (horder : InOrder opens (.path goal :: symbols)) : pathProduction goal taken = pathProduction goal tokens := by
  have hl := h.loosened rfl horder.spelt
  cases goal with
  | names | moreNames =>
    have hcolons : isOperator "::" taken = isOperator "::" tokens := hl.isOperator_eq fun hcolons =>
      h.isOperator_of_first (by simp [Goal.first?, Goal.production, pathProduction, hcolons])
    simp only [pathProduction, hcolons]
  | name => cases hl <;> rfl
  | path style =>
    have hcolons : isOperator "::" taken = isOperator "::" tokens := hl.isOperator_eq h.isOperator_colons_of_path
    simp only [pathProduction, hl.isOperator_of_length "<" rfl, hcolons]
  | qualifier => simp only [pathProduction, hl.isWord]
  | segments => rfl
  | moreSegments style =>
    have hbehind : (isOperator "::" tokens && !isGroup .parenthesis (taken.drop 2)) =
        (isOperator "::" tokens && !isGroup .parenthesis (tokens.drop 2)) :=
      and_congr_ahead fun hcolons => by rw [(hl.behind_operator 2 rfl hcolons).isGroup]
    simp only [pathProduction, h.isOperator_colons_of_moreSegments horder, hbehind]
  | segment style => cases hl <;> rfl
  | arguments style =>
    have hcolons : (isOperator "::" taken && isOperator "<" (taken.drop 2)) =
        (isOperator "::" tokens && isOperator "<" (tokens.drop 2)) := by
      cases hcolons : isOperator "::" tokens with
      | false => rw [hl.isOperator_eq_false hcolons, Bool.false_and, Bool.false_and]
      | true =>
        rw [(hl.behind_operator 2 rfl hcolons).isOperator_of_length "<" rfl]
        cases hless : isOperator "<" (tokens.drop 2) with
        | false => rw [Bool.and_false, Bool.and_false]
        | true =>
          have hstays : isOperator "::" taken = true :=
            h.isOperator_of_first (by simp [Goal.first?, Goal.production, pathProduction, hcolons, hless])
          rw [hstays]
    have hlist : (isOperator "::" taken && isGroup .parenthesis (taken.drop 2)) =
        (isOperator "::" tokens && isGroup .parenthesis (tokens.drop 2)) := by
      cases hcolons : isOperator "::" tokens with
      | false => rw [hl.isOperator_eq_false hcolons, Bool.false_and, Bool.false_and]
      | true =>
        rw [(hl.behind_operator 2 rfl hcolons).isGroup]
        cases hgroup : isGroup .parenthesis (tokens.drop 2) with
        | false => rw [Bool.and_false, Bool.and_false]
        | true => rw [h.isOperator_colons horder hcolons hgroup]
    simp only [pathProduction, Bool.and_assoc, hcolons, hlist, hl.isOperator_of_length "<" rfl,
      h.isOperator_lessEqual horder, hl.isGroup]
  | argumentList | moreArguments => simp only [pathProduction, hl.isOperator_of_length ">" rfl]
  | argument =>
    have hbehind : (isLifetime tokens && !isOperator "+" (taken.drop 2)) =
        (isLifetime tokens && !isOperator "+" (tokens.drop 2)) :=
      and_congr_ahead fun hlifetime => by rw [(hl.behind_lifetime hlifetime).isOperator_of_length "+" rfl]
    simp only [pathProduction, hl.isLifetime, hbehind, hl.isOperator_of_length "-" rfl, hl.isLiteral, hl.isGroup]
  | argumentValue =>
    simp only [pathProduction, hl.isOperator_of_length "-" rfl, hl.isGroup, hl.isName]
    cases hminus : isOperator "-" tokens with
    | true => simp only [(hl.behind_operator 1 rfl hminus).isNumber]
    | false => simp only [Bool.false_eq_true, if_false]
  | equated =>
    cases hequal : isOperator "=" tokens with
    | true =>
      have hbehind := hl.behind_operator 1 rfl hequal
      simp only [pathProduction, hl.isOperator_of_length "=" rfl, hequal, hbehind.isOperator_of_length "-" rfl,
        hbehind.isLiteral, hbehind.isGroup, if_true]
    | false =>
      simp only [pathProduction, hl.isOperator_of_length "=" rfl, hequal, hl.isOperator_of_length ":" rfl, Bool.false_eq_true,
        if_false]

/-! ## Types -/

/-- A type may begin with two colons, -/
theorem Reads.isOperator_colons_of_type {plus : Bool}
    (h : Reads .refused (.type (.type plus) :: symbols) found tokens taken last [])
    (hcolons : isOperator "::" tokens = true) : isOperator "::" taken = true := by
  obtain ⟨spacing, rest, rfl⟩ := exists_of_colons hcolons
  have hfirst : Goal.first? (.type (.type plus)) found (.punct ':' .joint :: .punct ':' spacing :: rest) =
      some (.path (.path .type)) := by
    simp [Goal.first?, Goal.production, typeProduction, startsPath, isOperatorOf, isGroup, isWordOf, isWord, hcolons]
  obtain ⟨_, -, h⟩ := h.of_first hfirst
  exact h.isOperator_colons_of_path hcolons

/-- and so may a bound. -/
theorem Reads.isOperator_colons_of_single {style : BoundStyle}
    (h : Reads .refused (.type (.single style) :: symbols) found tokens taken last [])
    (hcolons : isOperator "::" tokens = true) : isOperator "::" taken = true := by
  -- each goal on the way to the path of the trait stands for the next one
  obtain ⟨spacing, rest, rfl⟩ := exists_of_colons hcolons
  have h := h.replaced [Symbol.type (.trait style)] (by simp [Goal.production, typeProduction, isLifetime, isGroup, isWord])
  have h := h.replaced [Symbol.type (.constantTrait style)] (by simp [Goal.production, typeProduction, isWord])
  have h := h.replaced [Symbol.type .signedTrait] (by
    simp [Goal.production, typeProduction, isGroup, isWord, isOperator, isSpelled])
  have h := h.replaced [Symbol.path (.path .type)] (by simp [Goal.production, typeProduction, isOperator, isSpelled])
  exact h.isOperator_colons_of_path hcolons

/-- Where a type begins with the name of a path, two colons behind it are read as they stand. -/
theorem Reads.isOperator_colons_behind_type {plus : Bool} {name : String} {rest : List Token}
    (h : Reads .refused (.type (.type plus) :: symbols) found (.ident name :: rest) taken last [])
    (horder : InOrder opens (.type (.type plus) :: symbols)) (hname : isNameText name = true ∨ name = "self") :
    ∃ more, taken = .ident name :: more ∧ isOperator "::" more = isOperator "::" rest := by
  have hpath : startsPath (.ident name :: rest) = true := by
    rcases hname with hname | rfl
    · simp [startsPath, isName, hname]
    · simp [startsPath, isWordOf]
  have hwords : ∀ text ∈ ["fn", "unsafe", "extern", "for"], isNameText text = false ∧ text ≠ "self" := by decide
  have hother : ∀ text ∈ ["fn", "unsafe", "extern", "for"], name ≠ text := by
    rintro _ htext rfl
    obtain ⟨hnone, hself⟩ := hwords _ htext
    exact hname.elim (fun hname => by rw [hnone] at hname; cases hname) hself
  simp only [List.forall_mem_cons] at hother
  obtain ⟨hfn, hunsafe, hextern, hfor, -⟩ := hother
  obtain ⟨h, horder⟩ := h.replaced_inOrder horder [Symbol.path (.path .type), .type (.named plus)] (by
    simp [Goal.production, typeProduction, isGroup, isWordOf, isWord, hfn, hunsafe, hextern, hfor, hpath])
  obtain ⟨more, rfl, hmore, -⟩ := h.exists_behind_segment horder
  exact ⟨more, rfl, hmore⟩

/-- Behind the name of a parameter two colons are read as they stand, or not at all. -/
theorem Reads.isOperator_colons_of_parameter {first : Bool} {name : String} {rest : List Token}
    (h : Reads .refused (.type (.parameter first) :: symbols) found (.ident name :: rest) taken last [])
    (horder : InOrder opens (.type (.parameter first) :: symbols))
    (hname : isNameText name = true ∨ name = "self" ∨ name = "_") (hcolons : isOperator "::" rest = true) :
    isOperator "::" (taken.drop 1) = true := by
  obtain ⟨spacing, others, rfl⟩ := exists_of_colons hcolons
  obtain ⟨production, hp, h⟩ := h.of_goal
  have horder := horder.production hp
  by_cases hunderscore : name = "_"
  · subst hunderscore
    simp [Goal.production, typeProduction, isNamed, isColon, isWord, hcolons] at hp
    simp [isOperator, isSpelled] at hp
  · obtain rfl : [Symbol.type (.type true)] = production := by
      simpa [Goal.production, typeProduction, isNamed, isColon, isWord, hunderscore, hcolons] using hp
    obtain ⟨more, rfl, hmore⟩ :=
      h.isOperator_colons_behind_type horder (hname.imp_right (·.resolve_right hunderscore))
    exact hmore.trans hcolons

/-- So a colon behind the name stays single. -/
theorem Reads.isColon_of_parameter {first : Bool} {name : String} {rest more : List Token}
    (h : Reads .refused (.type (.parameter first) :: symbols) found (.ident name :: rest) (.ident name :: more) last [])
    (horder : InOrder opens (.type (.parameter first) :: symbols)) (hab : Loosened rest more)
    (hname : isNameText name = true ∨ name = "self" ∨ name = "_") : isColon more = isColon rest := by
  have hcolons : isOperator "::" more = isOperator "::" rest := hab.isOperator_eq fun hcolons =>
    h.isOperator_colons_of_parameter horder hname hcolons
  rw [isColon, isColon, hab.isOperator_of_length ":" rfl, hcolons]

/-- It does behind the two words in front of a method's function, too. -/
theorem Reads.isColon_of_selfParameter {rest more : List Token}
    (h : Reads .refused (.type (.parameter true) :: symbols) found (.ident "mut" :: .ident "self" :: rest) taken last [])
    (hab : Loosened rest more) : isColon more = isColon rest := by
  cases hcolons : isOperator "::" rest with
  | false => rw [isColon, isColon, hab.isOperator_of_length ":" rfl, hab.isOperator_eq_false hcolons, hcolons]
  | true =>
    obtain ⟨production, hp, -⟩ := h.of_goal
    obtain ⟨spacing, others, rfl⟩ := exists_of_colons hcolons
    simp [Goal.production, typeProduction, isWord, isColon, hcolons] at hp
    simp [isOperator, isSpelled] at hp

/-- Parameters of any number stay so, with or without a name. -/
theorem Reads.isVariadic_of_someParameters {first : Bool}
    (h : Reads .refused (.type (.someParameters first) :: symbols) found tokens taken last [])
    (horder : InOrder opens (.type (.someParameters first) :: symbols)) :
    isOperator "..." taken = isOperator "..." tokens ∧ isVariadic taken = isVariadic tokens := by
  have hl := h.loosened rfl horder.spelt
  have hfirst : isOperator "..." taken = isOperator "..." tokens := hl.isOperator_eq fun hdots => by
    have hspelling : "...".toList = ['.', '.', '.'] := rfl
    obtain ⟨spacing, rest, rfl⟩ := exists_of_three_dots hspelling hdots
    exact h.isOperator_of_first (by simp [Goal.first?, Goal.production, typeProduction, isOperator, isSpelled])
  refine ⟨hfirst, Bool.eq_iff_iff.2 ⟨fun hb => ?_, fun ha => ?_⟩⟩
  · simp only [isVariadic, hl.isName, hl.isWord, Bool.or_eq_true, Bool.and_eq_true] at hb ⊢
    refine hb.imp hl.isOperator fun hnamed => ?_
    have hident : isIdent tokens = true := hnamed.1.1.elim isIdent_of_isName isIdent_of_isWord
    have hbehind := hl.behind_ident hident
    have hcolon := (hbehind.isOperator_of_length ":" rfl).symm.trans hnamed.1.2
    have hdots := hbehind.behind_operator 1 rfl hcolon
    rw [List.drop_drop, List.drop_drop] at hdots
    exact ⟨⟨hnamed.1.1, hcolon⟩, hdots.isOperator hnamed.2⟩
  · cases hdots : isOperator "..." tokens with
    | true => rw [isVariadic, hfirst, hdots, Bool.true_or]
    | false =>
      -- the name, the colon and the dots are read one behind the other
      have hnamed := ha
      rw [isVariadic, hdots, Bool.false_or, Bool.and_eq_true, Bool.and_eq_true, Bool.or_eq_true] at hnamed
      obtain ⟨name, rest, rfl⟩ := exists_of_isIdent (hnamed.1.1.elim isIdent_of_isName isIdent_of_isWord)
      have hreads := h.replaced
        [nameOrUnderscore (.ident name :: rest), .operator ":", .operator "...", .type .optionalComma] (by
          simp [Goal.production, typeProduction, ha, isOperator, isSpelled])
      obtain ⟨_, rfl, hcolon⟩ := hreads.of_nameOrUnderscore
      obtain ⟨-, _, rfl, hdots⟩ := hcolon.of_operator
      obtain ⟨-, _, rfl, -⟩ := hdots.of_operator
      simp only [isVariadic, hl.isName, hl.isWord, Bool.or_eq_true, Bool.and_eq_true]
      exact Or.inr ⟨⟨hnamed.1.1, rfl⟩, isSpelled_operatorTokens_append _ _⟩

/-- The parts of a type have the same productions in the normal spacing. -/
theorem Reads.typeProduction_eq {goal : TypeGoal} (h : Reads .refused (.type goal :: symbols) found tokens taken last [])
    (horder : InOrder opens (.type goal :: symbols)) : typeProduction goal found taken = typeProduction goal found tokens := by
  have hl := h.loosened rfl horder.spelt
  cases goal with
  | type plus =>
    have hpath := hl.startsPath (hl.isOperator_eq h.isOperator_colons_of_type)
    simp only [typeProduction, hl.isGroup, hl.isWordOf, hl.isWord, hl.isLifetime, hpath, hl.isOperator_of_length "*" rfl,
      hl.isOperator_of_length "&" rfl, hl.isOperator_of_length "!" rfl]
    cases hdyn : isWord "dyn" tokens with
    | true => simp only [(hl.behind_ident (isIdent_of_isWord hdyn)).isOperator_of_length "*" rfl, if_true]
    | false =>
      cases hstar : isOperator "*" tokens with
      | true => simp only [(hl.behind_operator 1 rfl hstar).isWord, Bool.false_eq_true, if_false, if_true]
      | false =>
        cases hand : isOperator "&" tokens with
        | true =>
          have hbehind := hl.behind_operator 1 rfl hand
          simp only [hbehind.isWord, hbehind.isLifetime, Bool.false_eq_true, if_false, if_true]
          cases hlifetime : isLifetime (tokens.drop 1) with
          | true =>
            have hlast : Loosened ((tokens.drop 1).drop 2) ((taken.drop 1).drop 2) := hbehind.behind_lifetime hlifetime
            rw [List.drop_drop, List.drop_drop] at hlast
            simp only [hlast.isWord]
          | false => simp only [Bool.false_eq_true, if_false]
        | false => simp only [Bool.false_eq_true, if_false]
  | bindable => simp only [typeProduction, hl.isWordOf, hl.isName]
  | named plus => simp only [typeProduction, h.isBang (horder.closed rfl) rfl]
  | list | moreList | parameters | moreParameters | optionalComma => simp only [typeProduction, hl.isEmpty]
  | parenthesized => simp only [typeProduction, hl.isLifetime, hl.isOperator_of_length "?" rfl]
  | element | constant => rfl
  | length => simp only [typeProduction, hl.isOperator_of_length ";" rfl]
  | lifetimes | moreLifetimes | captures | moreCaptures => simp only [typeProduction, hl.isOperator_of_length ">" rfl]
  | lifetimeParameter => simp only [typeProduction, hl.isOperator_of_length "#" rfl]
  | bounds | capture => simp only [typeProduction, hl.isLifetime, hl.isWord]
  | moreBounds | moreBoundList => simp only [typeProduction, hl.isOperator_of_length "+" rfl]
  | anotherBound style plus =>
    have hcolons : isOperator "::" taken = isOperator "::" tokens := hl.isOperator_eq fun hcolons => by
      have h := h.replaced [Symbol.type (.single style), .type (.moreBounds style plus)] (by
        simp [Goal.production, typeProduction, startsBound, isOperatorOf, hcolons])
      exact h.isOperator_colons_of_single hcolons
    have hstarts : startsBound style taken = startsBound style tokens := by
      simp only [startsBound, isOperatorOf, List.any_cons, List.any_nil, hl.isIdent, hl.isLifetime, hl.isGroup, hcolons,
        hl.isOperator_of_length "?" rfl, hl.isOperator_of_length "~" rfl]
    simp only [typeProduction, hstarts]
  | boundList aliased =>
    have hmarks : isOperatorOf [",", ">", "="] taken = isOperatorOf [",", ">", "="] tokens :=
      hl.isOperatorOf_of_length (by decide)
    have hends : endsBounds aliased taken = endsBounds aliased tokens := by
      simp only [endsBounds, hl.isEmpty, hl.isWord, hl.isOperator_of_length ";" rfl, hl.isGroup, hmarks]
    simp only [typeProduction, hends]
  | single | trait | constantTrait | optionalTrait | function | linked =>
    simp only [typeProduction, hl.isLifetime, hl.isGroup, hl.isWord, hl.isOperator_of_length "~" rfl]
  | signedTrait => simp only [typeProduction, hl.isOperator_of_length "?" rfl]
  | linkage => simp only [typeProduction, hl.isText]
  | someParameters first =>
    obtain ⟨hdots, hvariadic⟩ := h.isVariadic_of_someParameters horder
    simp only [typeProduction, hl.isOperator_of_length "#" rfl, hdots, hvariadic, nameOrUnderscore, hl.isWord]
  | parameter first =>
    cases hl with
    | nil => cases first <;> rfl
    | punct | group | literal => cases first <;> rfl
    | @ident name rest more hab =>
      have hcolon := fun hname => h.isColon_of_parameter horder hab hname
      have hnamed : isNamed (.ident name :: more) = isNamed (.ident name :: rest) := by
        refine and_congr_ahead fun hname => hcolon ?_
        rw [Bool.or_eq_true] at hname
        exact hname.imp_right fun hunderscore => Or.inr (eq_of_beq hunderscore)
      have hself : (first && isWord "self" (.ident name :: rest) && isColon more) =
          (first && isWord "self" (.ident name :: rest) && isColon rest) := by
        refine and_congr_ahead fun hself => hcolon ?_
        rw [Bool.and_eq_true] at hself
        exact Or.inr (Or.inl (eq_of_beq hself.2))
      have hword : ∀ text, isWord text (.ident name :: more) = isWord text (.ident name :: rest) := fun _ => rfl
      cases hmethod : first && isWord "mut" (.ident name :: rest) && isWord "self" rest with
      | true =>
        simp only [Bool.and_eq_true] at hmethod
        obtain ⟨⟨rfl, hmut⟩, hmethod⟩ := hmethod
        obtain rfl : name = "mut" := eq_of_beq hmut
        obtain ⟨_, others, rfl⟩ := exists_of_isIdent (isIdent_of_isWord hmethod)
        obtain rfl := eq_of_beq hmethod
        cases hab with
        | ident hab =>
          simp only [typeProduction, List.drop_succ_cons, List.drop_zero, h.isColon_of_selfParameter hab,
            hab.isOperator_of_length ":" rfl]
          rfl
      | false =>
        simp only [typeProduction, hword, hnamed, nameOrUnderscore, List.drop_succ_cons, List.drop_zero, hab.isWord, hmethod,
          hself, hab.isOperator_of_length ":" rfl, Bool.false_eq_true, if_false]
  | result =>
    have harrow : isOperator "->" taken = isOperator "->" tokens := hl.isOperator_eq fun harrow =>
      h.isOperator_of_first (by simp [Goal.first?, Goal.production, typeProduction, harrow])
    simp only [typeProduction, harrow]

/-! ## Patterns -/

/-- The position of a single field. -/
theorem exists_of_isPosition {text : List Char} (h : Number.isPosition text = true) :
    ∃ n, Number.fieldPath? text = some ([n], false) := by
  unfold Number.isPosition at h
  split at h
  · exact ⟨_, ‹_›⟩
  · cases h

/-- The position of a single field stays one when it is written plainly. -/
theorem isPosition_toString {text : List Char} {n : Nat} {dotted : Bool} (h : Number.fieldPath? text = some ([n], dotted)) :
    Number.isPosition (toString n).toList = true := by
  obtain ⟨-, -, hbound⟩ := Number.exists_parts_of_fieldPath? h
  rw [Number.isPosition, Number.fieldPath?_toString (hbound n List.mem_cons_self)]

/-- Where the number of a field is asked for, it stands, and stays one. -/
theorem Reads.isPosition_of_field {goal : Goal} {text again : String} {rest more : List Token} {others : List Symbol}
    (hp : goal.production found (.literal text :: rest) =
      if Number.isPosition text.toList then some (.position :: others) else none)
    (h : Reads .refused (.goal goal :: symbols) found (.literal text :: rest) (.literal again :: more) last []) :
    Number.isPosition text.toList = true ∧ Number.isPosition again.toList = true := by
  obtain ⟨production, hsome, h⟩ := h.of_goal
  rw [hp] at hsome
  split_ifs at hsome with hposition
  cases hsome
  obtain ⟨n, hpath⟩ := exists_of_isPosition hposition
  obtain ⟨_, _, positions, dotted, _, heq, hpositions, htaken, -⟩ := h.of_position
  cases heq
  rw [hpath] at hpositions
  cases hpositions
  cases htaken
  exact ⟨hposition, isPosition_toString hpath⟩

/-- Behind an expression or a pattern that ends, an operator of several characters is read as it stands. -/
theorem Reads.isOperator_of_nil {goal : Goal} {text : String}
    (h : Reads .refused (.goal goal :: symbols) found tokens taken last []) (horder : InOrder opens (.goal goal :: symbols))
    (htail : goal.tail = some false) (hp : goal.production found tokens = some []) (htext : text ∈ glued)
    (hoperator : isOperator text tokens = true) : isOperator text taken = true := by
  obtain ⟨production, hp', h⟩ := h.of_goal
  rw [hp] at hp'
  cases hp'
  have hmunches := (known_of_ordered horder.ordered).1 false (by simp [knows, htail])
  have hfound : false = true → found.isBlock = false := fun h => by cases h
  exact h.isOperator_of_munches rfl hmunches hfound htext hoperator

/-- A bar stays single where nothing is read unless one is ahead. -/
theorem Reads.isBar_of_nil {goal : Goal} (h : Reads .refused (.goal goal :: symbols) found tokens taken last [])
    (horder : InOrder opens (.goal goal :: symbols)) (htail : goal.tail = some false)
    (hnil : isBar tokens = false → goal.production found tokens = some []) : isBar taken = isBar tokens := by
  have hl := h.loosened rfl horder.spelt
  have hor : isOperator "||" taken = isOperator "||" tokens := hl.isOperator_eq fun hoperator =>
    h.isOperator_of_nil horder htail (hnil (by simp [isBar, hoperator])) (by decide) hoperator
  have hassign : isOperator "|=" taken = isOperator "|=" tokens := hl.isOperator_eq fun hoperator =>
    h.isOperator_of_nil horder htail (hnil (by simp [isBar, hoperator])) (by decide) hoperator
  rw [isBar, isBar, hl.isOperator_of_length "|" rfl, hor, hassign]

/-- A pattern that begins with a path began with one. -/
theorem Loosened.startsPathPattern {a b : List Token} (h : Loosened a b) (hb : startsPathPattern b = true) :
    Expression.startsPathPattern a = true := by
  cases h with
  | ident hab =>
    simp only [Expression.startsPathPattern, List.drop_succ_cons, List.drop_zero, hab.isGroup, Bool.or_eq_true,
      Bool.and_eq_true] at hb ⊢
    exact hb.imp_left (Or.imp (Or.imp (And.imp id (Or.imp_left (Or.imp_left hab.isOperatorOf))) (And.imp id hab.isOperator)) id)
  | punct hjoint happostrophe hab =>
    simp only [Expression.startsPathPattern, Bool.or_eq_true] at hb ⊢
    exact hb.imp_left (Or.imp_right (Loosened.punct hjoint happostrophe hab).isOperatorOf)
  | nil | group | literal => exact hb

/-- Where a pattern begins with a name, two colons and two dots behind it are read as they stand. -/
theorem Reads.exists_behind_pattern {name : String} {rest : List Token}
    (h : Reads .refused (.pattern .single :: symbols) found (.ident name :: rest) taken last [])
    (horder : InOrder opens (.pattern .single :: symbols)) (hpath : startsPathPattern (.ident name :: rest) = true) :
    ∃ more, taken = .ident name :: more ∧ isOperator "::" more = isOperator "::" rest ∧
      isOperator ".." more = isOperator ".." rest := by
  obtain ⟨h, horder⟩ := h.replaced_inOrder horder [Symbol.path (.path .value), .pattern .afterPath] (by
    simp [Goal.production, patternProduction, hpath])
  exact h.exists_behind_segment horder

/-- The same patterns begin with a path. -/
theorem Reads.startsPathPattern_eq (h : Reads .refused (.pattern .single :: symbols) found tokens taken last [])
    (horder : InOrder opens (.pattern .single :: symbols)) : startsPathPattern taken = startsPathPattern tokens := by
  have hl := h.loosened rfl horder.spelt
  refine Bool.eq_iff_iff.2 ⟨hl.startsPathPattern, fun hpath => ?_⟩
  cases hl with
  | @ident name rest more hab =>
    obtain ⟨_, heq, hcolons, hdots⟩ := h.exists_behind_pattern horder hpath
    cases heq
    have hbehind : isOperatorOf ["::", "!", ".."] more = isOperatorOf ["::", "!", ".."] rest := by
      simp only [isOperatorOf, List.any_cons, List.any_nil, hcolons, hab.isOperator_of_length "!" rfl, hdots]
    simp only [startsPathPattern, List.drop_succ_cons, List.drop_zero, hbehind, hab.isGroup, hcolons]
    exact hpath
  | @punct c s t a b hjoint happostrophe hab =>
    have hl : Loosened (.punct c s :: a) (.punct c t :: b) := .punct hjoint happostrophe hab
    have hcolons : isOperator "::" (.punct c s :: a) = true → isOperator "::" (.punct c t :: b) = true := fun hcolons => by
      have h := h.replaced [Symbol.path (.path .value), .pattern .afterPath] (by
        simp [Goal.production, patternProduction, hpath])
      exact h.isOperator_colons_of_path hcolons
    have hfirst : isOperatorOf ["::", "<"] (.punct c t :: b) = isOperatorOf ["::", "<"] (.punct c s :: a) := by
      simp only [isOperatorOf, List.any_cons, List.any_nil, hl.isOperator_eq hcolons, hl.isOperator_of_length "<" rfl]
    simp only [startsPathPattern, hfirst]
    exact hpath
  | nil | group | literal => exact hpath

/-- A range pattern without lower bound begins with two dots and an equals sign, -/
theorem Reads.isOperator_inclusive_of_single (h : Reads .refused (.pattern .single :: symbols) found tokens taken last [])
    (hrange : isOperator "..=" tokens = true) : isOperator "..=" taken = true := by
  have hspelling : "..=".toList = ['.', '.', '='] := rfl
  obtain ⟨spacing, rest, rfl⟩ := exists_of_three_dots hspelling hrange
  refine h.isOperator_of_first ?_
  simp [Goal.first?, Goal.production, patternProduction, startsPathPattern, isOperatorOf, isName, isWordOf, isWord, isLiteral,
    isGroup, isOperator, isSpelled]

/-- and none begins with three. -/
theorem Reads.not_isOperator_dots_of_single (h : Reads .refused (.pattern .single :: symbols) found tokens taken last []) :
    isOperator "..." tokens = false := by
  refine Bool.eq_false_iff.2 fun hdots => ?_
  have hspelling : "...".toList = ['.', '.', '.'] := rfl
  obtain ⟨production, hp, -⟩ := h.of_goal
  obtain ⟨spacing, rest, rfl⟩ := exists_of_three_dots hspelling hdots
  simp [Goal.production, patternProduction, startsPathPattern, isOperatorOf, isName, isWordOf, isWord, isLiteral, isGroup,
    isOperator, isSpelled] at hp

/-- A bound of a range may begin with two colons, -/
theorem Reads.isOperator_colons_of_bound (h : Reads .refused (.pattern .bound :: symbols) found tokens taken last [])
    (hcolons : isOperator "::" tokens = true) : isOperator "::" taken = true := by
  obtain ⟨spacing, rest, rfl⟩ := exists_of_colons hcolons
  have h := h.replaced [Symbol.path (.path .value)] (by
    simp [Goal.production, patternProduction, startsPath, isOperatorOf, isLiteral, isWord, isOperator, isSpelled])
  exact h.isOperator_colons_of_path hcolons

/-- and so may the upper one, so that a range ends where it ended. -/
theorem Reads.endsPatternRange_eq {goal : PatternGoal} {more ends : List Symbol}
    (h : Reads .refused (.pattern goal :: symbols) found tokens taken last [])
    (horder : InOrder opens (.pattern goal :: symbols))
    (hp : patternProduction goal found tokens = if endsPatternRange tokens then some ends else some (.pattern .bound :: more)) :
    endsPatternRange taken = endsPatternRange tokens := by
  have hl := h.loosened rfl horder.spelt
  have hcolons : isOperator "::" taken = isOperator "::" tokens := hl.isOperator_eq fun hcolons => by
    obtain ⟨spacing, rest, rfl⟩ := exists_of_colons hcolons
    have h := h.replaced (.pattern .bound :: more) (by
      simp [Goal.production, hp, endsPatternRange, isOperatorOf, isWord, isOperator, isSpelled])
    exact h.isOperator_colons_of_bound hcolons
  have hmarks : isOperatorOf ["|", "=", ",", ";"] taken = isOperatorOf ["|", "=", ",", ";"] tokens :=
    hl.isOperatorOf_of_length (by decide)
  simp only [endsPatternRange, hl.isEmpty, hl.isWord, hmarks, hl.isOperator_of_length ":" rfl, hcolons]

/-- A pattern that reaches up to some bound has one of three operators. -/
theorem Reads.isOperator_eq_of_afterBound (h : Reads .refused (.pattern .afterBound :: symbols) found tokens taken last [])
    (horder : InOrder opens (.pattern .afterBound :: symbols)) {text : String} (htext : text ∈ ["..=", "..."]) :
    isOperator text taken = isOperator text tokens := by
  refine (h.loosened rfl horder.spelt).isOperator_eq fun hoperator => h.isOperator_of_first ?_
  simp only [List.mem_cons, List.not_mem_nil, or_false] at htext
  rcases htext with rfl | rfl
  · simp [Goal.first?, Goal.production, patternProduction, hoperator]
  · have hspelling : "...".toList = ['.', '.', '.'] := rfl
    obtain ⟨spacing, rest, rfl⟩ := exists_of_three_dots hspelling hoperator
    simp [Goal.first?, Goal.production, patternProduction, isOperator, isSpelled]

/-- The parts of a pattern have the same productions in the normal spacing. -/
theorem Reads.patternProduction_eq {goal : PatternGoal}
    (h : Reads .refused (.pattern goal :: symbols) found tokens taken last [])
    (horder : InOrder opens (.pattern goal :: symbols)) :
    patternProduction goal found taken = patternProduction goal found tokens := by
  have hl := h.loosened rfl horder.spelt
  cases goal with
  | pattern | element => simp only [patternProduction, hl.isOperator_of_length "|" rfl]
  | alternatives =>
    have hbar := h.isBar_of_nil horder rfl fun hbar => by simp [Goal.production, patternProduction, hbar]
    simp only [patternProduction, hbar]
  | afterElement =>
    have hbar := h.isBar_of_nil horder rfl fun hbar => by
      obtain ⟨production, hp, -⟩ := h.of_goal
      simp only [Goal.production, patternProduction, hbar, Bool.false_eq_true, if_false] at hp ⊢
      split_ifs at hp ⊢
      rfl
    simp only [patternProduction, hbar]
  | single =>
    have hrange : isOperator "..=" taken = isOperator "..=" tokens := hl.isOperator_eq h.isOperator_inclusive_of_single
    have hdots : isOperator "..." tokens = false := h.not_isOperator_dots_of_single
    simp only [patternProduction, h.startsPathPattern_eq horder, hl.isWord, hl.isOperator_of_length "-" rfl, hl.isLiteral,
      hl.isWordOf, hl.isName, hl.isOperator_of_length "&" rfl, hl.isGroup, hrange, h.isOperator_dots horder, hdots,
      hl.isOperator_eq_false hdots]
  | named =>
    cases hident : isIdent tokens with
    | true => simp only [patternProduction, hl.isWord, (hl.behind_ident hident).isWord]
    | false => simp only [patternProduction, hl.isWord, isWord_eq_false_of_isIdent hident, Bool.false_eq_true, if_false]
  | binding | reference => simp only [patternProduction, hl.isWord]
  | afterPath => simp only [patternProduction, h.isBang (horder.closed rfl) rfl, hl.isGroup]
  | afterBound =>
    simp only [patternProduction, h.isOperator_eq_of_afterBound horder (List.mem_cons_self),
      h.isOperator_eq_of_afterBound horder (List.mem_cons_of_mem _ List.mem_cons_self), h.isOperator_dots horder]
  | bound =>
    have hpath := hl.startsPath (hl.isOperator_eq h.isOperator_colons_of_bound)
    simp only [patternProduction, hl.isOperator_of_length "-" rfl, hl.isLiteral, hl.isWord, hpath]
    cases hminus : isOperator "-" tokens with
    | true => simp only [(hl.behind_operator 1 rfl hminus).isNumber]
    | false => simp only [Bool.false_eq_true, if_false]
  | optionalBound | rest => simp only [patternProduction, h.endsPatternRange_eq horder rfl]
  | subpattern => simp only [patternProduction, hl.isOperator_of_length "@" rfl]
  | list | moreList | slice | moreSlice | fields | moreFields => simp only [patternProduction, hl.isEmpty]
  | someFields => simp only [patternProduction, hl.isOperator_of_length "#" rfl, h.isOperator_dots horder]
  | field =>
    cases hl with
    | nil | punct | group => rfl
    | ident hab => simp only [patternProduction, (Loosened.ident hab).isWordOf, (Loosened.ident hab).wordsAhead]
    | literal =>
      obtain ⟨hposition, hagain⟩ := h.isPosition_of_field rfl
      simp only [patternProduction, hposition, hagain]
  | fieldPattern => simp only [patternProduction, hl.isOperator_of_length ":" rfl]

end PrivateLog.Expression
