import PrivateLog.Proofs.Expression.Following
import PrivateLog.Proofs.Expression.Loosening

/-!
# Operators that stay joined

An expression takes an operator in the length that the reader wanted, so `&&` may come out as two times `&`. Some longer
operators are never taken apart. One that begins with a steady operator, such as `==` or `..`, is not, because what may stand
behind the steady one alone begins with nothing that makes the longer one of it (`rejects_of_refuses`,
`Reads.isOperator_of_steady`). Behind an expression none is, because everything that may stand there takes the operator as a
whole, or leaves it to what comes next (`Reads.isOperator_of_munches`).
-/

namespace PrivateLog.Expression

/-! ## Where reading fails at once -/

/-- Symbols are not read from some tokens. -/
def Rejects (symbols : List Symbol) (tokens : List Token) : Prop :=
  ∀ found taken last left, ¬Reads .refused symbols found tokens taken last left

section
variable {symbols : List Symbol} {tokens : List Token}

/-- A goal is not read if none of its productions is. -/
theorem rejects_goal {goal : Goal}
    (h : ∀ found production, goal.production found tokens = some production → Rejects (production ++ symbols) tokens) :
    Rejects (.goal goal :: symbols) tokens := by
  intro found taken last left hreads
  obtain ⟨production, hp, hreads⟩ := hreads.of_goal
  exact h found production hp _ _ _ _ hreads

/-- A remark does not change that. -/
theorem rejects_form {next : Form} (h : Rejects symbols tokens) : Rejects (.form next :: symbols) tokens := by
  intro found taken last left hreads
  exact h _ _ _ _ hreads.of_form

/-- A terminal is not read if it does not fit. -/
theorem rejects_terminal {symbol : Symbol} {c : Char} {spacing : Spacing} {rest : List Token}
    (hsymbol : symbol.isTerminal = true) (h : takeTerminal? symbol (.punct c spacing :: rest) = none) :
    Rejects (symbol :: symbols) (.punct c spacing :: rest) := by
  intro found taken last left hreads
  cases hreads with
  | form | goal => cases hsymbol
  | terminal ht =>
    rw [h] at ht
    cases ht

/-- Whether tokens begin with a character with which no operand and no type begins. -/
def Foreign (tokens : List Token) : Prop :=
  ∃ c spacing rest, tokens = .punct c spacing :: rest ∧ (c = '=' ∨ c = '>' ∨ c = ':') ∧ isOperator "::" tokens = false

variable (h : Foreign tokens)
include h

/-- No operand begins with such a character, -/
theorem rejects_atom (struct : Bool) : Rejects (.value (.atom struct) :: symbols) tokens := by
  refine rejects_goal fun found production hp => ?_
  obtain ⟨c, spacing, rest, rfl, hc, htwo⟩ := h
  have hnone : atomProduction struct (.punct c spacing :: rest) = none := by
    simp only [atomProduction, startsPathOperand, startsPath, isOperatorOf, List.any_cons, htwo]
    rcases hc with rfl | rfl | rfl <;>
      simp [isLiteral, startsAsyncBlock, isWord, startsClosure, isWordOf, isBinder, isName, isGroup, isLifetime, isOperator,
        isSpelled]
  rw [Goal.production, valueProduction, hnone] at hp
  cases hp

/-- whatever stands before it, -/
theorem rejects_operand (struct : Bool) : Rejects (.value (.operand struct) :: symbols) tokens := by
  refine rejects_goal fun found production hp => ?_
  have hatom := @rejects_atom (.value .trailers :: symbols) tokens h struct
  obtain ⟨c, spacing, rest, rfl, hc, -⟩ := h
  obtain rfl : [Symbol.value (.atom struct), .value .trailers] = production := by
    rcases hc with rfl | rfl | rfl <;> simpa [Goal.production, valueProduction, isTaggedRange, isOperator, isSpelled] using hp
  exact hatom

/-- no expression, -/
theorem rejects_expression (struct : Bool) : Rejects (.value (.expression struct) :: symbols) tokens := by
  refine rejects_goal fun found production hp => ?_
  cases hp
  exact rejects_operand h struct

/-- no labelled loop, -/
theorem rejects_labelled : Rejects (.value .labelled :: symbols) tokens := by
  refine rejects_goal fun found production hp => ?_
  obtain ⟨c, spacing, rest, rfl, hc, htwo⟩ := h
  simp [Goal.production, valueProduction, isWord, isGroup] at hp

/-- no type, -/
theorem rejects_type (plus : Bool) : Rejects (.type (.type plus) :: symbols) tokens := by
  refine rejects_goal fun found production hp => ?_
  obtain ⟨c, spacing, rest, rfl, hc, htwo⟩ := h
  have hnone : typeProduction (.type plus) found (.punct c spacing :: rest) = none := by
    simp only [typeProduction, startsPath, isOperatorOf, List.any_cons, htwo]
    rcases hc with rfl | rfl | rfl <;> simp [isWord, isWordOf, isName, isGroup, isLifetime, isOperator, isSpelled]
  rw [Goal.production, hnone] at hp
  cases hp

/-- no path, -/
theorem rejects_path (style : PathStyle) : Rejects (.path (.path style) :: symbols) tokens := by
  refine rejects_goal fun found production hp => ?_
  obtain ⟨c, spacing, rest, rfl, hc, htwo⟩ := h
  obtain rfl : [Symbol.form .bare, .path (.segments style)] = production := by
    simp only [Goal.production, pathProduction, htwo] at hp
    rcases hc with rfl | rfl | rfl <;> simpa [isOperator, isSpelled] using hp
  refine rejects_form (rejects_goal fun found production hp => ?_)
  cases hp
  refine rejects_goal fun found production hp => ?_
  cases hp

/-- no bound, -/
theorem rejects_bound : Rejects (.type (.single .parameter) :: symbols) tokens := by
  -- each goal on the way to the path of the trait stands for the next one
  have hpath := @rejects_path symbols tokens h .type
  obtain ⟨c, spacing, rest, rfl, hc, htwo⟩ := h
  refine rejects_goal fun found production hp => ?_
  obtain rfl : [Symbol.type (.trait .parameter)] = production := by
    rcases hc with rfl | rfl | rfl <;> simpa [Goal.production, typeProduction, isLifetime, isGroup] using hp
  refine rejects_goal fun found production hp => ?_
  obtain rfl : [Symbol.type (.constantTrait .parameter)] = production := by
    simpa [Goal.production, typeProduction, isWord] using hp
  refine rejects_goal fun found production hp => ?_
  obtain rfl : [Symbol.type .signedTrait] = production := by
    rcases hc with rfl | rfl | rfl <;> simpa [Goal.production, typeProduction, isWord, isGroup, isOperator, isSpelled] using hp
  refine rejects_goal fun found production hp => ?_
  obtain rfl : [Symbol.path (.path .type)] = production := by
    rcases hc with rfl | rfl | rfl <;> simpa [Goal.production, typeProduction, isOperator, isSpelled] using hp
  exact hpath

/-- so that no list of bounds goes on with it, -/
theorem rejects_boundList {aliased : Bool} (hends : endsBounds aliased tokens = false) :
    Rejects (.type (.boundList aliased) :: symbols) tokens := by
  refine rejects_goal fun found production hp => ?_
  obtain rfl : [Symbol.type (.single .parameter), .type (.moreBoundList aliased)] = production := by
    simpa [Goal.production, typeProduction, hends] using hp
  exact rejects_bound h

/-- no pattern, -/
theorem rejects_pattern : Rejects (.pattern .pattern :: symbols) tokens := by
  refine rejects_goal fun found production hp => ?_
  obtain ⟨c, spacing, rest, rfl, hc, htwo⟩ := h
  obtain rfl : [Symbol.pattern .single, .pattern .alternatives] = production := by
    rcases hc with rfl | rfl | rfl <;> simpa [Goal.production, patternProduction, isOperator, isSpelled] using hp
  refine rejects_goal fun found production hp => ?_
  have hnone : patternProduction .single found (.punct c spacing :: rest) = none := by
    simp only [patternProduction, startsPathPattern, isOperatorOf, List.any_cons, htwo]
    rcases hc with rfl | rfl | rfl <;> simp [isLiteral, isWord, isWordOf, isName, isGroup, isOperator, isSpelled]
  rw [Goal.production, hnone] at hp
  cases hp

/-- and no value in the arguments of a path. -/
theorem rejects_argumentValue : Rejects (.path .argumentValue :: symbols) tokens := by
  refine rejects_goal fun found production hp => ?_
  obtain ⟨c, spacing, rest, rfl, hc, htwo⟩ := h
  obtain rfl : [Symbol.literal] = production := by
    rcases hc with rfl | rfl | rfl <;>
      simpa [Goal.production, pathProduction, isName, isGroup, isOperator, isSpelled] using hp
  exact rejects_terminal rfl rfl

end

/-! ## Steady operators -/

/-- Whether tokens begin with what makes a longer operator of a steady one. Two colons are taken one by one in front of
anything but a parenthesis, where no path goes on with them. -/
def Lengthens (text : String) (tokens : List Token) : Prop :=
  ∃ c spacing rest, tokens = .punct c spacing :: rest ∧
    (text = "<" ∧ c = '=' ∨ text = "=" ∧ (c = '=' ∨ c = '>') ∨ text = "." ∧ c = '.' ∨ text = "!" ∧ c = '=' ∨
      text = ":" ∧ c = ':' ∧ isGroup .parenthesis rest = true)

/-- Except for the second of two dots, this is no beginning of an operand. -/
theorem foreign_of_lengthens {text : String} {tokens : List Token} (h : Lengthens text tokens) (htext : text ≠ ".") :
    Foreign tokens := by
  obtain ⟨c, spacing, rest, rfl, h⟩ := h
  rcases h with ⟨-, rfl⟩ | ⟨-, rfl | rfl⟩ | ⟨rfl, -⟩ | ⟨-, rfl⟩ | ⟨-, rfl, hgroup⟩
  · exact ⟨'=', spacing, rest, rfl, Or.inl rfl, rfl⟩
  · exact ⟨'=', spacing, rest, rfl, Or.inl rfl, rfl⟩
  · exact ⟨'>', spacing, rest, rfl, Or.inr (Or.inl rfl), rfl⟩
  · exact absurd rfl htext
  · exact ⟨'=', spacing, rest, rfl, Or.inl rfl, rfl⟩
  · refine ⟨':', spacing, rest, rfl, Or.inr (Or.inr rfl), ?_⟩
    cases rest with
    | nil => cases hgroup
    | cons token rest =>
      cases token with
      | group => cases spacing <;> rfl
      | _ => cases hgroup

/-- A colon is made longer by another one, -/
theorem exists_colon_of_lengthens {tokens : List Token} (h : Lengthens ":" tokens) :
    ∃ spacing rest, tokens = .punct ':' spacing :: rest := by
  obtain ⟨c, spacing, rest, rfl, h⟩ := h
  obtain ⟨rfl, -⟩ : c = ':' ∧ isGroup .parenthesis rest = true := by simpa using h
  exact ⟨spacing, rest, rfl⟩

/-- and an angle bracket or an exclamation mark by an equals sign. -/
theorem exists_equal_of_lengthens {text : String} {tokens : List Token} (h : Lengthens text tokens)
    (htext : text = "<" ∨ text = "!") : ∃ spacing rest, tokens = .punct '=' spacing :: rest := by
  obtain ⟨c, spacing, rest, rfl, h⟩ := h
  obtain rfl : c = '=' := by rcases htext with rfl | rfl <;> simpa using h
  exact ⟨spacing, rest, rfl⟩

/-- Bounds do not end at what makes a longer operator of the one in front of them. -/
theorem endsBounds_of_lengthens {text : String} {aliased : Bool} {tokens : List Token} (h : Lengthens text tokens)
    (htext : text = ":" ∨ aliased = true ∧ text = "=") : endsBounds aliased tokens = false := by
  obtain ⟨c, spacing, rest, rfl, h⟩ := h
  rcases htext with rfl | ⟨rfl, rfl⟩
  · obtain ⟨rfl, -⟩ : c = ':' ∧ isGroup .parenthesis rest = true := by simpa using h
    simp [endsBounds, isOperatorOf, isWord, isGroup, isOperator, isSpelled]
  · have hc : c = '=' ∨ c = '>' := by simpa using h
    rcases hc with rfl | rfl <;> simp [endsBounds, isWord, isOperator, isSpelled]

/-- What may stand behind a colon rejects another one, -/
theorem rejects_of_refuses_colon {symbol : Symbol} {symbols : List Symbol} {tokens : List Token}
    (hsymbol : symbol ∈ [.value .labelled, .pattern .pattern, .item .lifetimeList, .item .fieldType, .item .inputType,
      .operator "..."])
    (h : Lengthens ":" tokens) : Rejects (symbol :: symbols) tokens := by
  have hforeign := foreign_of_lengthens h (by decide)
  simp only [List.mem_cons, List.not_mem_nil, or_false] at hsymbol
  rcases hsymbol with rfl | rfl | rfl | rfl | rfl | rfl
  · exact rejects_labelled hforeign
  · exact rejects_pattern hforeign
  · obtain ⟨spacing, rest, rfl⟩ := exists_colon_of_lengthens h
    refine rejects_goal fun found production hp => ?_
    simp [Goal.production, itemProduction, isLifetime, isOperator, isSpelled] at hp
  · have htype := @rejects_type symbols tokens hforeign true
    obtain ⟨spacing, rest, rfl⟩ := exists_colon_of_lengthens h
    refine rejects_goal fun found production hp => ?_
    obtain rfl : [Symbol.type (.type true)] = production := by
      simpa [Goal.production, itemProduction, isWord] using hp
    exact htype
  · have htype := @rejects_type (.item .moreInputs :: symbols) tokens hforeign true
    obtain ⟨spacing, rest, rfl⟩ := exists_colon_of_lengthens h
    refine rejects_goal fun found production hp => ?_
    obtain rfl : [Symbol.type (.type true), .item .moreInputs] = production := by
      simpa [Goal.production, itemProduction, isOperator, isSpelled] using hp
    exact htype
  · obtain ⟨spacing, rest, rfl⟩ := exists_colon_of_lengthens h
    exact rejects_terminal rfl rfl

/-- what may stand behind an angle bracket rejects an equals sign, -/
theorem rejects_of_refuses_less {symbol : Symbol} {symbols : List Symbol} {tokens : List Token}
    (hsymbol : symbol ∈ [.type .lifetimes, .path .argumentList, .type .captures, .item .parameters])
    (h : Lengthens "<" tokens) : Rejects (symbol :: symbols) tokens := by
  have htype := fun symbols => @rejects_type symbols tokens (foreign_of_lengthens h (by decide)) true
  obtain ⟨spacing, rest, rfl⟩ := exists_equal_of_lengthens h (.inl rfl)
  simp only [List.mem_cons, List.not_mem_nil, or_false] at hsymbol
  rcases hsymbol with rfl | rfl | rfl | rfl
  · refine rejects_goal fun found production hp => ?_
    obtain rfl : [Symbol.type .lifetimeParameter, .type .moreLifetimes] = production := by
      simpa [Goal.production, typeProduction, isOperator, isSpelled] using hp
    refine rejects_goal fun found production hp => ?_
    obtain rfl : [Symbol.lifetime] = production := by
      simpa [Goal.production, typeProduction, isOperator, isSpelled] using hp
    exact rejects_terminal rfl (by cases rest <;> rfl)
  · refine rejects_goal fun found production hp => ?_
    obtain rfl : [Symbol.path .argument, .path .moreArguments] = production := by
      simpa [Goal.production, pathProduction, isOperator, isSpelled] using hp
    refine rejects_goal fun found production hp => ?_
    obtain rfl : [Symbol.type (.type true), .path .equated] = production := by
      simpa [Goal.production, pathProduction, isLifetime, isLiteral, isGroup, isOperator, isSpelled] using hp
    exact htype _
  · refine rejects_goal fun found production hp => ?_
    obtain rfl : [Symbol.type .capture, .type .moreCaptures] = production := by
      simpa [Goal.production, typeProduction, isOperator, isSpelled] using hp
    refine rejects_goal fun found production hp => ?_
    obtain rfl : [Symbol.name] = production := by
      simpa [Goal.production, typeProduction, isLifetime, isWord] using hp
    exact rejects_terminal rfl rfl
  · refine rejects_goal fun found production hp => ?_
    obtain rfl : [Symbol.item .parameter, .item .moreParameters] = production := by
      simpa [Goal.production, itemProduction, isOperator, isSpelled] using hp
    refine rejects_goal fun found production hp => ?_
    obtain rfl : [Symbol.name, .item .typeBounds, .item .definition] = production := by
      simpa [Goal.production, itemProduction, isLifetime, isWord, isOperator, isSpelled] using hp
    exact rejects_terminal rfl rfl

/-- and so does what may stand behind an exclamation mark. -/
theorem rejects_of_refuses_bang {symbol : Symbol} {symbols : List Symbol} {tokens : List Token}
    (hsymbol : symbol = .item .macroName ∨ symbol = .item .macroTokens ∨ symbol = .tree ∨
      ∃ delimiter goal, symbol = .group delimiter goal)
    (h : Lengthens "!" tokens) : Rejects (symbol :: symbols) tokens := by
  obtain ⟨spacing, rest, rfl⟩ := exists_equal_of_lengthens h (.inr rfl)
  have htokens : Rejects (.item .macroTokens :: symbols) (.punct '=' spacing :: rest) :=
    rejects_goal fun found production hp => by
      obtain rfl : [Symbol.tree, .operator ";"] = production := by
        simpa [Goal.production, itemProduction, isGroup] using hp
      exact rejects_terminal rfl rfl
  rcases hsymbol with rfl | rfl | rfl | ⟨delimiter, goal, rfl⟩
  · refine rejects_goal fun found production hp => ?_
    obtain rfl : [Symbol.item .macroTokens] = production := by
      simpa [Goal.production, itemProduction, isWord, isName] using hp
    exact htokens
  · exact htokens
  · exact rejects_terminal rfl rfl
  · exact rejects_terminal rfl rfl

/-- What may stand behind a steady operator rejects what would make a longer one of it. -/
theorem rejects_of_refuses {text : String} {symbol : Symbol} {symbols : List Symbol} {tokens : List Token}
    (hsymbol : symbol.refuses text = true) (h : Lengthens text tokens) : Rejects (symbol :: symbols) tokens := by
  have hforeign := foreign_of_lengthens h
  unfold Symbol.refuses at hsymbol
  split at hsymbol
  · exact rejects_operand (hforeign (of_decide_eq_true hsymbol)) _
  · exact rejects_expression (hforeign (of_decide_eq_true hsymbol)) _
  · exact rejects_type (hforeign (of_decide_eq_true hsymbol)) _
  · exact rejects_argumentValue (hforeign (of_decide_eq_true hsymbol))
  · simp only [Bool.or_eq_true, Bool.and_eq_true, decide_eq_true_eq] at hsymbol
    have hends : endsBounds _ tokens = false := endsBounds_of_lengthens h hsymbol
    refine rejects_boundList (hforeign ?_) hends
    rcases hsymbol with rfl | ⟨-, rfl⟩ <;> decide
  iterate 5
    · obtain rfl := of_decide_eq_true hsymbol
      exact rejects_of_refuses_colon (by simp) h
  iterate 4
    · obtain rfl := of_decide_eq_true hsymbol
      exact rejects_of_refuses_less (by simp) h
  · obtain ⟨c, spacing, rest, rfl, -⟩ := h
    refine rejects_goal fun found production hp => ?_
    obtain rfl : [Symbol.name, .value .afterMember] = production := by
      simpa [Goal.production, valueProduction, isWord] using hp
    exact rejects_terminal rfl rfl
  iterate 4
    · obtain rfl := of_decide_eq_true hsymbol
      exact rejects_of_refuses_bang (by simp) h
  · simp only [Bool.and_eq_true, decide_eq_true_eq] at hsymbol
    obtain ⟨rfl, rfl⟩ := hsymbol
    exact rejects_of_refuses_colon (by simp) h
  · cases hsymbol

/-- Behind a steady operator stands what rejects the rest of a longer one. -/
theorem exists_refuses_of_guarded {text : String} {symbols : List Symbol} {tokens : List Token} {opens : Bool}
    (h : guarded opens (.operator text) symbols = true) (hopens : text = "!" → opens = false)
    (hlengthens : Lengthens text tokens) : ∃ symbol others, symbols = symbol :: others ∧ symbol.refuses text = true := by
  have hsteady : text ∈ steady := by
    obtain ⟨c, spacing, rest, -, h⟩ := hlengthens
    rcases h with ⟨rfl, -⟩ | ⟨rfl, -⟩ | ⟨rfl, -⟩ | ⟨rfl, -⟩ | ⟨rfl, -⟩ <;> decide
  have hfollows : follows text symbols = true := by
    simp only [guarded, Bool.or_eq_true, Bool.and_eq_true, decide_eq_true_eq] at h
    refine h.resolve_left ?_
    rintro ⟨hopen, htext⟩
    rw [hopens htext] at hopen
    cases hopen
  cases symbols with
  | nil => exact absurd hsteady (of_decide_eq_true hfollows)
  | cons symbol others =>
    rw [follows, Bool.or_eq_true, decide_eq_true_eq] at hfollows
    exact ⟨symbol, others, rfl, hfollows.resolve_left (not_not_intro hsteady)⟩

variable {symbols : List Symbol} {found last : Form} {tokens taken left : List Token}

/-- A steady operator that is joined to what makes a longer one of it stays joined. -/
theorem Reads.exists_joint {text : String} {c : Char} {rest : List Token} {opens : Bool}
    (h : Reads .refused symbols found tokens taken last left) (hleft : left = []) (horder : InOrder opens symbols)
    (htext : text.toList = [c]) (htokens : tokens = .punct c .joint :: rest) (hopens : text = "!" → opens = false)
    (hlengthens : Lengthens text rest) : ∃ more, taken = .punct c .joint :: more := by
  induction h generalizing opens with
  | nil =>
    subst hleft
    cases htokens
  | form _ ih => exact ih hleft horder.behind htokens fun _ => rfl
  | goal hp _ ih => exact ih hleft (horder.production hp) htokens hopens
  | group => cases htokens
  | @terminal symbol symbols found last tokens first behind taken left ht hrest =>
    subst htokens
    cases takeTerminal?_eq_some_iff.1 ht with
    | @operator spelt _ hoperator =>
      obtain ⟨hspelt, hordered⟩ := horder
      simp only [List.all_cons, Symbol.isSpelt, Bool.and_eq_true, decide_eq_true_eq] at hspelt
      have hne : spelt.toList ≠ [] := by simpa using hspelt.1.1
      obtain ⟨d, cs, hspelling⟩ := List.exists_cons_of_ne_nil hne
      rw [isOperator, hspelling] at hoperator
      obtain ⟨_, _, heq, -, -⟩ := exists_of_isSpelled hoperator
      cases heq
      cases cs with
      | nil =>
        -- The operator is taken alone: what stands behind it then rejects the rest.
        obtain rfl : spelt = text := String.toList_inj.1 (hspelling.trans htext.symm)
        have hlength : spelt.length = 1 := by rw [← String.length_toList, hspelling]; rfl
        rw [hlength] at hrest
        rw [ordered, Bool.and_eq_true, Bool.and_eq_true] at hordered
        obtain ⟨next, others, rfl, hnext⟩ := exists_refuses_of_guarded hordered.1.1 hopens hlengthens
        exact absurd hrest (rejects_of_refuses hnext hlengthens _ _ _ _)
      | cons e cs =>
        rw [hspelling]
        exact ⟨_, rfl⟩
    | lifetime => exact ⟨_, rfl⟩
    | @literal _ _ hliteral => cases hliteral

/-- An operator of two characters is two tokens, the first joined to the second. -/
theorem exists_of_isOperator_pair {text : String} {c d : Char} (htext : text.toList = [c, d])
    (h : isOperator text tokens = true) : ∃ spacing rest, tokens = .punct c .joint :: .punct d spacing :: rest := by
  rw [isOperator, htext] at h
  obtain ⟨_, rest, rfl, hjoint, hrest⟩ := exists_of_isSpelled h
  obtain rfl := hjoint (List.cons_ne_nil d [])
  obtain ⟨spacing, others, rfl, -, -⟩ := exists_of_isSpelled hrest
  exact ⟨spacing, others, rfl⟩

/-- A longer operator than a steady one is read as it stands. -/
theorem Reads.isOperator_of_steady {text longer : String} {c d : Char} {opens : Bool}
    (h : Reads .refused symbols found tokens taken last []) (horder : InOrder opens symbols)
    (htext : text.toList = [c]) (hlonger : longer.toList = [c, d]) (hopens : text = "!" → opens = false)
    (hoperator : isOperator longer tokens = true) (hlengthens : Lengthens text (tokens.drop 1)) :
    isOperator longer taken = true := by
  have hloosened := h.loosened rfl horder.spelt
  obtain ⟨_, others, rfl⟩ := exists_of_isOperator_pair hlonger hoperator
  obtain ⟨more, rfl⟩ := h.exists_joint rfl horder htext rfl hopens hlengthens
  rw [isOperator, hlonger]
  cases hloosened with
  | punct _ _ hmore =>
    cases hmore with
    | punct => simp [isSpelled]

/-- An operator is ahead in both rows if it is in the second one whenever it is in the first. -/
theorem Loosened.isOperator_eq {text : String} (h : Loosened tokens taken)
    (hkept : Expression.isOperator text tokens = true → Expression.isOperator text taken = true) :
    Expression.isOperator text taken = Expression.isOperator text tokens :=
  Bool.eq_iff_iff.2 ⟨h.isOperator, hkept⟩

section
variable {opens : Bool} (h : Reads .refused symbols found tokens taken last []) (horder : InOrder opens symbols)
include h horder

/-- What a steady operator and one more character are is read as it stands. -/
theorem Reads.isOperator_eq_of_steady (text longer : String) (c d : Char) (htext : text.toList = [c])
    (hlonger : longer.toList = [c, d]) (hopens : text = "!" → opens = false)
    (hlengthens : ∀ spacing rest, Lengthens text (.punct d spacing :: rest)) :
    isOperator longer taken = isOperator longer tokens := by
  refine (h.loosened rfl horder.spelt).isOperator_eq fun hoperator => ?_
  refine h.isOperator_of_steady horder htext hlonger hopens hoperator ?_
  obtain ⟨spacing, others, rfl⟩ := exists_of_isOperator_pair hlonger hoperator
  exact hlengthens spacing others

/-- So is the comparison `<=`, -/
theorem Reads.isOperator_lessEqual : isOperator "<=" taken = isOperator "<=" tokens :=
  h.isOperator_eq_of_steady horder "<" "<=" '<' '=' rfl rfl (by simp) fun _ _ => ⟨_, _, _, rfl, by simp⟩

/-- the arrow of an arm, -/
theorem Reads.isOperator_arrow : isOperator "=>" taken = isOperator "=>" tokens :=
  h.isOperator_eq_of_steady horder "=" "=>" '=' '>' rfl rfl (by simp) fun _ _ => ⟨_, _, _, rfl, by simp⟩

/-- the comparison `==`, -/
theorem Reads.isOperator_equal : isOperator "==" taken = isOperator "==" tokens :=
  h.isOperator_eq_of_steady horder "=" "==" '=' '=' rfl rfl (by simp) fun _ _ => ⟨_, _, _, rfl, by simp⟩

/-- two dots, -/
theorem Reads.isOperator_dots : isOperator ".." taken = isOperator ".." tokens :=
  h.isOperator_eq_of_steady horder "." ".." '.' '.' rfl rfl (by simp) fun _ _ => ⟨_, _, _, rfl, by simp⟩

/-- and so a dot. -/
theorem Reads.isDot : isDot taken = isDot tokens := by
  rw [Expression.isDot, Expression.isDot, h.isOperator_dots horder,
    (h.loosened rfl horder.spelt).isOperator_of_length "." rfl]

/-- Where no type may come next, `!=` is read as it stands, -/
theorem Reads.isOperator_notEqual (hopens : opens = false) : isOperator "!=" taken = isOperator "!=" tokens :=
  h.isOperator_eq_of_steady horder "!" "!=" '!' '=' rfl rfl (fun _ => hopens) fun _ _ => ⟨_, _, _, rfl, by simp⟩

/-- and so is the `!` of a macro call. -/
theorem Reads.isBang (hopens : opens = false) : isBang taken = isBang tokens := by
  rw [Expression.isBang, Expression.isBang, h.isOperator_notEqual horder hopens,
    (h.loosened rfl horder.spelt).isOperator_of_length "!" rfl]

/-- In front of a parenthesis two colons are read as they stand. -/
theorem Reads.isOperator_colons (hoperator : isOperator "::" tokens = true)
    (hgroup : isGroup .parenthesis (tokens.drop 2) = true) : isOperator "::" taken = true := by
  have hcolon : ":".toList = [':'] := rfl
  have hcolons : "::".toList = [':', ':'] := rfl
  refine h.isOperator_of_steady horder hcolon hcolons (by simp) hoperator ?_
  obtain ⟨spacing, rest, rfl⟩ := exists_of_isOperator_pair hcolons hoperator
  exact ⟨_, _, _, rfl, by simpa using hgroup⟩

end

/-! ## Operators behind an expression -/

/-- The operators of several characters that are asked for behind an expression, apart from those that begin with a steady
one: they may be read as several shorter ones elsewhere. -/
def glued : List String :=
  ["+=", "-=", "*=", "/=", "%=", "^=", "&=", "|=", "<<=", ">>=", "&&", "||", "<<", ">>", "<=", "!=", ">=", "->"]

/-- The characters they begin with. -/
theorem exists_of_isOperator_glued {text : String} (htext : text ∈ glued) (h : isOperator text tokens = true) :
    ∃ c spacing rest, tokens = .punct c spacing :: rest ∧ c ∉ [',', ';', '=', '.', '?'] := by
  have hall : ∀ text ∈ glued, text.toList.head?.any (· ∉ [',', ';', '=', '.', '?']) = true := by decide
  have hhead := hall text htext
  cases hspelling : text.toList with
  | nil => simp [hspelling] at hhead
  | cons c cs =>
    rw [isOperator, hspelling] at h
    obtain ⟨spacing, rest, rfl, -, -⟩ := exists_of_isSpelled h
    refine ⟨c, spacing, rest, rfl, ?_⟩
    simpa [hspelling] using hhead

/-- Of two operators that are ahead one begins the other. -/
theorem prefix_or_prefix_of_isSpelled {a b : List Char} (ha : isSpelled a tokens = true) (hb : isSpelled b tokens = true) :
    a <+: b ∨ b <+: a := by
  induction a generalizing b tokens with
  | nil => exact Or.inl List.nil_prefix
  | cons c a ih =>
    cases b with
    | nil => exact Or.inr List.nil_prefix
    | cons d b =>
      obtain ⟨_, rest, rfl, -, ha⟩ := exists_of_isSpelled ha
      obtain ⟨_, _, heq, -, hb⟩ := exists_of_isSpelled hb
      cases heq
      exact (ih ha hb).imp (List.cons_prefix_cons.2 ⟨rfl, ·⟩) (List.cons_prefix_cons.2 ⟨rfl, ·⟩)

/-- Binary operators are looked for from the longest: any other that is ahead begins the one that is found. -/
theorem prefix_of_binaryOperator? {text other : String} {p q : Precedence}
    (h : binaryOperator? tokens = some (text, p)) (hm : (other, q) ∈ binaryOperators)
    (hother : isOperator other tokens = true) : other.toList <+: text.toList := by
  have hpairwise : binaryOperators.Pairwise fun a b => ¬a.1.toList <+: b.1.toList := by decide
  obtain ⟨htext, before, behind, heq, hbefore⟩ := List.find?_eq_some_iff_append.1 h
  rw [heq] at hm hpairwise
  rcases List.mem_append.1 hm with hm | hm
  · have hnone := hbefore _ hm
    rw [hother] at hnone
    cases hnone
  · cases hm with
    | head => exact List.prefix_rfl
    | tail _ hm =>
      refine (prefix_or_prefix_of_isSpelled hother htext).resolve_right ?_
      exact List.rel_of_pairwise_cons (List.pairwise_append.1 hpairwise).2.1 hm

/-- What an operator that is ahead begins with is ahead. -/
theorem isSpelled_of_begins {a b : List Char} (hbegins : a <+: b) (h : isSpelled b tokens = true) :
    isSpelled a tokens = true := by
  obtain ⟨cs, rfl⟩ := hbegins
  induction a generalizing tokens with
  | nil => cases tokens <;> rfl
  | cons c a ih =>
    obtain ⟨spacing, rest, rfl, hjoint, hrest⟩ := exists_of_isSpelled h
    simp only [isSpelled, ih hrest, beq_self_eq_true, Bool.true_and, Bool.and_true, Bool.or_eq_true, List.isEmpty_iff, beq_iff_eq]
    cases a with
    | nil => exact Or.inl rfl
    | cons d a => exact Or.inr (hjoint (List.cons_ne_nil _ _))

/-- Where a binary operator is read, all of it is. -/
theorem isOperator_of_reads_operator {text other : String} {p : Precedence} {struct : Bool}
    (h : Reads .refused (.operator text :: .value (.operand struct) :: symbols) found tokens taken last left)
    (hbinary : binaryOperator? tokens = some (text, p)) (hother : other ∈ glued) (hoperator : isOperator other tokens = true) :
    isOperator other taken = true := by
  obtain ⟨htext, more, rfl, hrest⟩ := h.of_operator
  have hall : ∀ other ∈ glued, other = "->" ∨ binaryOperators.any (·.1 == other) = true := by decide
  rcases hall other hother with rfl | hmem
  · -- A minus is read, and no operand begins with what makes an arrow of it.
    exfalso
    have harrow : "->".toList = ['-', '>'] := rfl
    obtain ⟨spacing, rest, rfl⟩ := exists_of_isOperator_pair harrow hoperator
    obtain ⟨rfl, -⟩ : "-" = text ∧ .sum = p := by
      simpa [binaryOperator?, binaryOperators, isOperator, isSpelled] using hbinary
    exact rejects_operand ⟨'>', spacing, rest, rfl, Or.inr (Or.inl rfl), rfl⟩ struct _ _ _ _ hrest
  · obtain ⟨⟨entry, q⟩, hm, heq⟩ := List.any_eq_true.1 hmem
    obtain rfl : entry = other := eq_of_beq heq
    exact isSpelled_of_begins (prefix_of_binaryOperator? hbinary hm hoperator) (isSpelled_operatorTokens_append _ _)

/-- Where an operator of several characters is ahead, so is a binary operator. -/
theorem isSome_binaryOperator? {text : String} (htext : text ∈ glued) (h : isOperator text tokens = true) :
    (binaryOperator? tokens).isSome = true := by
  have hall : ∀ text ∈ glued, binaryOperators.any (fun entry => entry.1.toList.isPrefixOf text.toList) = true := by decide
  obtain ⟨entry, hm, hbegins⟩ := List.any_eq_true.1 (hall text htext)
  exact List.find?_isSome.2 ⟨entry, hm, isSpelled_of_begins (List.isPrefixOf_iff_prefix.1 hbegins) h⟩

/-- Where a binary operator is ahead, it stands for the operators behind an operand, unless it is left to others. -/
theorem operatorProduction_cases {floor : Precedence} {struct : Bool} {production : List Symbol}
    (hbinary : (binaryOperator? tokens).isSome = true) (hp : operatorProduction floor struct found tokens = some production) :
    production = [] ∨ ∃ text p others, binaryOperator? tokens = some (text, p) ∧
      production = .operator text :: .value (.operand struct) :: others := by
  obtain ⟨⟨text, p⟩, heq⟩ := Option.isSome_iff_exists.1 hbinary
  simp only [operatorProduction, heq] at hp
  split_ifs at hp
  · exact Or.inl (Option.some.inj hp).symm
  · exact Or.inl (Option.some.inj hp).symm
  · exact Or.inr ⟨text, p, _, heq, (Option.some.inj hp).symm⟩
  · exact Or.inr ⟨text, p, _, heq, (Option.some.inj hp).symm⟩

/-- A goal that asks for the end of a statement, a comma, or the end of the tokens, is not read from an operator. -/
theorem rejects_of_separates {goal : Goal} {c : Char} {spacing : Spacing} {rest : List Token}
    (hc : c ∉ [',', ';', '=', '.', '?']) (hgoal : goal.separates = true) :
    Rejects (.goal goal :: symbols) (.punct c spacing :: rest) := by
  simp only [List.mem_cons, not_or] at hc
  have hcomma : ∀ symbols, Rejects (.operator "," :: symbols) (.punct c spacing :: rest) := fun symbols =>
    rejects_terminal rfl (by simp [takeTerminal?, isOperator, isSpelled, Ne.symm hc.1])
  refine rejects_goal fun found production hp => ?_
  cases goal with
  | value goal =>
    cases goal with
    | moreList | moreFields =>
      cases hp
      exact hcomma _
    | afterElement =>
      obtain rfl : [Symbol.value .moreList] = production := by
        simpa [Goal.production, valueProduction, isOperator, isSpelled, Ne.symm hc.2.1] using hp
      refine rejects_goal fun found production hp => ?_
      cases hp
      exact hcomma _
    | _ => cases hgoal
  | pattern goal =>
    cases goal with
    | moreList | moreSlice | moreFields =>
      cases hp
      exact hcomma _
    | _ => cases hgoal
  | item goal =>
    cases goal with
    | moreVariants =>
      cases hp
      exact hcomma _
    | _ => cases hgoal
  | path | type | statement => cases hgoal

/-- Unless a block was read, a statement does not end at an operator. -/
theorem production_of_endsStatement {goal : Goal} {c : Char} {spacing : Spacing} {rest : List Token}
    (hc : c ∉ [',', ';', '=', '.', '?']) (hgoal : goal.endsStatement = true) (hfound : found.isBlock = false) :
    goal.production found (.punct c spacing :: rest) = none := by
  simp only [List.mem_cons, not_or] at hc
  have hblock : found ≠ .block ∧ found ≠ .bracedMacro := by
    constructor <;> rintro rfl <;> cases hfound
  cases goal with
  | statement goal =>
    cases goal with
    | statementEnd => simp [Goal.production, statementProduction, isOperator, isSpelled, Ne.symm hc.2.1, hblock]
    | armEnd => simp [Goal.production, statementProduction, isOperator, isSpelled, Ne.symm hc.1, hblock]
    | _ => cases hgoal
  | _ => cases hgoal

/-- A goal behind an expression leaves an operator to others, or goes on with what reads all of it. -/
theorem production_of_passes {goal : Goal} {production : List Symbol} {text : String} {c : Char} {spacing : Spacing}
    {rest : List Token} (hc : c ∉ [',', ';', '=', '.', '?']) (hgoal : goal.passes = true) (htext : text ∈ glued)
    (hoperator : isOperator text (.punct c spacing :: rest) = true)
    (hp : goal.production found (.punct c spacing :: rest) = some production) :
    production = [] ∨ (∃ floor next struct, production = [.value (.operators next struct), .value (.climb floor struct)]) ∨
      ∃ text p struct others, binaryOperator? (.punct c spacing :: rest) = some (text, p) ∧
        production = .operator text :: .value (.operand struct) :: others := by
  simp only [List.mem_cons, not_or] at hc
  obtain ⟨-, -, -, hdot, hquestion, -⟩ := hc
  have hnodot : isDot (.punct c spacing :: rest) = false := by simp [isDot, isOperator, isSpelled, Ne.symm hdot]
  have hnoquestion : isOperator "?" (.punct c spacing :: rest) = false := by
    simp [isOperator, isSpelled, Ne.symm hquestion]
  cases goal with
  | value goal =>
    cases goal with
    | operators floor struct =>
      refine (operatorProduction_cases (isSome_binaryOperator? htext hoperator) hp).imp_right ?_
      rintro ⟨text, p, others, heq, rfl⟩
      exact Or.inr ⟨text, p, struct, others, heq, rfl⟩
    | climb floor struct =>
      simp only [Goal.production, valueProduction] at hp
      split_ifs at hp
      · exact Or.inl (Option.some.inj hp).symm
      · exact Or.inr (Or.inl ⟨_, _, _, (Option.some.inj hp).symm⟩)
      · exact Or.inl (Option.some.inj hp).symm
    | trailers =>
      left
      simpa [Goal.production, valueProduction, isGroup, hnodot, hnoquestion, eq_comm] using hp
    | afterCast =>
      left
      simpa [Goal.production, valueProduction, isGroup, hnodot, hnoquestion, eq_comm] using hp
    | _ => cases hgoal
  | statement goal =>
    left
    cases goal with
    | afterEarly => simpa [Goal.production, statementProduction, hnodot, hnoquestion, eq_comm] using hp
    | diverging _ | armGuard => simpa [Goal.production, statementProduction, isWord, eq_comm] using hp
    | _ => cases hgoal
  | item goal =>
    left
    cases goal with
    | condition => simpa [Goal.production, itemProduction, isWord, eq_comm] using hp
    | _ => cases hgoal
  | path | type | pattern => cases hgoal

/-- Behind an expression an operator of several characters is read as it stands. -/
theorem Reads.isOperator_of_munches {text : String} {inside : Bool}
    (h : Reads .refused symbols found tokens taken last left) (hleft : left = [])
    (hmunches : munches (knows none) inside symbols = true) (hfound : inside = true → found.isBlock = false)
    (htext : text ∈ glued) (hoperator : isOperator text tokens = true) : isOperator text taken = true := by
  obtain ⟨c, spacing, rest, htokens, hc⟩ := exists_of_isOperator_glued htext hoperator
  induction h generalizing inside with
  | nil =>
    subst hleft
    cases htokens
  | form _ ih =>
    rw [munches, Bool.and_eq_true, Bool.not_eq_true'] at hmunches
    exact ih hleft hmunches.2 (fun _ => hmunches.1) hoperator htokens
  | @goal goal production symbols found last tokens taken left hp hreads ih =>
    subst htokens
    simp only [munches, Bool.or_eq_true, Bool.and_eq_true] at hmunches
    rcases hmunches with (hseparates | ⟨hinside, hends⟩) | ⟨hpasses, hmunches⟩
    · exact absurd (Reads.goal hp hreads) (rejects_of_separates hc hseparates _ _ _ _)
    · rw [production_of_endsStatement hc hends (hfound hinside)] at hp
      cases hp
    · rcases production_of_passes hc hpasses htext hoperator hp with rfl | ⟨_, _, _, rfl⟩ | ⟨_, _, _, _, hbinary, rfl⟩
      · exact ih hleft hmunches hfound hoperator rfl
      · refine ih hleft ?_ hfound hoperator rfl
        simpa [munches, Goal.passes] using Or.inr (Or.inr hmunches)
      · exact isOperator_of_reads_operator hreads hbinary htext hoperator
  | group => cases htokens
  | @terminal symbol symbols found last tokens first behind taken left ht hrest =>
    subst htokens
    simp only [List.mem_cons, not_or] at hc
    cases takeTerminal?_eq_some_iff.1 ht with
    | @operator spelt _ hspelt =>
      have hnone : ∀ spelt ∈ [",", ";", "=", "=>"], isOperator spelt (.punct c spacing :: rest) = false := by
        simp [isOperator, isSpelled, Ne.symm hc.1, Ne.symm hc.2.1, Ne.symm hc.2.2.1]
      rw [hnone spelt (of_decide_eq_true hmunches)] at hspelt
      cases hspelt
    | literal hliteral => cases hliteral
    | lifetime => cases hmunches

end PrivateLog.Expression
