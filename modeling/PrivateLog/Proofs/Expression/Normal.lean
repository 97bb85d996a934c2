import PrivateLog.Proofs.Expression.Operands
import PrivateLog.Proofs.Outcome
import PrivateLog.Proofs.Token.Margins

/-!
# Expressions are their own normal form

What an expression takes is read again, and taken as it stands (`Reads.again`). The induction follows the derivation: a goal has
the same production, a terminal takes what it took before, and a number that names several tuple fields is read as one field
behind another (`Reads.members`). Together with the printing of tokens this makes the text of an expression its normal form
(`parse_normal_form`).
-/

namespace PrivateLog.Expression

variable {symbols : List Symbol} {found last : Form} {tokens taken : List Token} {opens : Bool} {goal : Goal}

/-! ## Positions behind a dot -/

/-- The number of a single field is read as it is written. -/
theorem Reads.position {n : Nat} {more : List Token} (hbound : n < Nat.pow 2 32)
    (h : Reads .refused symbols found more more last []) :
    Reads .refused (.position :: symbols) found (.literal (toString n) :: more) (.literal (toString n) :: more) last [] :=
  .terminal (takeTerminal?_eq_some_iff.2 (.position (Number.fieldPath?_toString hbound))) h

/-- What goes on behind a dot is a field of what stands before it. -/
theorem Reads.dot {more : List Token}
    (h : Reads .refused (.value (.member true) :: .form .plain :: .value .trailers :: symbols) .plain more more last []) :
    Reads .refused (.value .trailers :: symbols) .plain (.punct '.' .alone :: more) (.punct '.' .alone :: more) last [] := by
  have hdot : Expression.isDot (.punct '.' .alone :: more) = true := by simp [Expression.isDot, isOperator, isSpelled]
  have hproduction : Goal.production (.value .trailers) .plain (.punct '.' .alone :: more) =
      some [.operator ".", .value (.member true), .form .plain, .value .trailers] := by
    simp [Goal.production, valueProduction, isGroup, hdot]
  have hoperator : isOperator "." (.punct '.' .alone :: more) = true := by simp [isOperator, isSpelled]
  exact .goal hproduction (.terminal (takeTerminal?_eq_some_iff.2 (.operator hoperator)) h)

/-- A single number behind a dot is a field. -/
theorem Reads.member {path : Bool} {n : Nat} {more : List Token} (hbound : n < Nat.pow 2 32)
    (h : Reads .refused (.value .trailers :: symbols) .plain more more last []) :
    Reads .refused (.value (.member path) :: .form .plain :: .value .trailers :: symbols) found
      (.literal (toString n) :: more) (.literal (toString n) :: more) last [] := by
  have hproduction : Goal.production (.value (.member path)) found (.literal (toString n) :: more) = some [.position] := by
    simp only [Goal.production, valueProduction, Number.fieldPath?_toString hbound, List.length_singleton,
      decide_true, Bool.or_true, if_true, Bool.false_eq_true, if_false]
  exact .goal hproduction (.position hbound (.form h))

/-- Numbers with dots between them are fields of fields. -/
theorem Reads.members {path : Bool} {positions : List Nat} {more : List Token} (hne : positions ≠ [])
    (hbound : ∀ n ∈ positions, n < Nat.pow 2 32)
    (h : Reads .refused (.value .trailers :: symbols) .plain more more last []) :
    Reads .refused (.value (.member path) :: .form .plain :: .value .trailers :: symbols) found
      (positionTokens false positions ++ more) (positionTokens false positions ++ more) last [] := by
  induction positions generalizing path found with
  | nil => exact absurd rfl hne
  | cons n ns ih =>
    obtain ⟨hn, hns⟩ := List.forall_mem_cons.1 hbound
    cases ns with
    | nil => exact .member hn h
    | cons m ns => exact .member hn (.dot (ih (List.cons_ne_nil m ns) hns))

/-- A dot at the end of a number stands behind the positions. -/
theorem positionTokens_true {positions : List Nat} (hne : positions ≠ []) :
    positionTokens true positions = positionTokens false positions ++ [.punct '.' .alone] := by
  induction positions with
  | nil => exact absurd rfl hne
  | cons n ns ih =>
    cases ns with
    | nil => rfl
    | cons m ns =>
      have hrest := ih (List.cons_ne_nil m ns)
      simp only [positionTokens, List.cons_append] at hrest ⊢
      rw [hrest]

/-- A field that stands behind a dot of a number may stand behind any dot. -/
theorem Reads.member_true (h : Reads .refused (.value (.member false) :: symbols) found tokens taken last []) :
    Reads .refused (.value (.member true) :: symbols) found tokens taken last [] := by
  obtain ⟨production, hp, h⟩ := h.of_goal
  have hsame : Goal.production (.value (.member true)) found tokens = some production := by
    simp only [Goal.production, valueProduction] at hp ⊢
    split at hp
    · split at hp
      · simp only [Bool.false_eq_true, if_false, Bool.false_or] at hp
        split_ifs at hp with hdotted hlength
        rw [if_neg hdotted, Bool.true_or, if_pos rfl]
        exact hp
      · cases hp
    · exact hp
  exact .goal hsame h

/-! ## The normal form -/

/-- Whether a production does not begin with a position. -/
def opensPlainly (production : List Symbol) : Bool :=
  production.head? ≠ some .position

/-- Apart from fields behind a dot, only a single number is read as a position. -/
theorem all_opensPlainly_production {goal : Goal} {found : Form} {text : String} {rest : List Token}
    (hmember : goal.isMember = false) (hposition : Number.isPosition text.toList = false) :
    (goal.production found (.literal text :: rest)).all opensPlainly = true := by
  cases goal with
  | path goal =>
    cases goal with
    | name | segment => rfl
    | _ =>
      rw [Goal.production, pathProduction]
      repeat' apply all_ite
      all_goals rfl
  | type goal =>
    cases goal <;> rw [Goal.production, typeProduction] <;> repeat' apply all_ite
    all_goals rfl
  | pattern goal =>
    cases goal with
    | field => simp [Goal.production, patternProduction, hposition]
    | _ =>
      rw [Goal.production, patternProduction]
      repeat' apply all_ite
      all_goals rfl
  | statement goal =>
    cases goal <;> rw [Goal.production, statementProduction] <;> repeat' apply all_ite
    all_goals rfl
  | item goal =>
    cases goal with
    | declaration surroundings marked => cases surroundings <;> cases marked <;> rfl
    | associated surroundings marked => cases surroundings <;> cases marked <;> rfl
    | importTree => rfl
    | _ =>
      rw [Goal.production, itemProduction]
      repeat' apply all_ite
      all_goals rfl
  | value goal =>
    cases goal with
    | member => cases hmember
    | field => simp [Goal.production, valueProduction, hposition]
    | atom =>
      rw [Goal.production, valueProduction, atomProduction]
      repeat' apply all_ite
      all_goals rfl
    | operators =>
      rw [Goal.production, valueProduction, operatorProduction]
      refine all_ite rfl ?_
      split <;> repeat' apply all_ite
      all_goals rfl
    | _ =>
      rw [Goal.production, valueProduction]
      repeat' apply all_ite
      all_goals rfl

/-- What was taken is read again. If a position is ahead, this holds of what stands behind it: how a number is written anew
depends on what it stands for. -/
structure ReadsAgain (symbols : List Symbol) (found : Form) (tokens taken : List Token) (last : Form) : Prop where
  plain : symbols.head? ≠ some .position → Reads .refused symbols found taken taken last []
  position : ∀ others, symbols = .position :: others → ∃ text rest positions dotted more, tokens = .literal text :: rest ∧
    Number.fieldPath? text.toList = some (positions, dotted) ∧ taken = positionTokens dotted positions ++ more ∧
    Reads .refused others found more more last []

/-- Among symbols in order a position is the first. -/
theorem InOrder.head_ne_position {symbol : Symbol} (h : InOrder opens (symbol :: symbols)) :
    symbols.head? ≠ some .position := by
  have hordered := h.ordered
  simp only [Expression.ordered, fulfilled, Bool.and_eq_true, decide_eq_true_eq] at hordered
  exact hordered.1.2.1

/-- No group holds the name of a field alone. -/
theorem InOrder.isMember_eq_false {delimiter : Delimiter} (h : InOrder opens (.group delimiter goal :: symbols)) :
    goal.isMember = false := by
  have hordered := h.ordered
  simp only [Expression.ordered, fulfilled, Bool.and_eq_true, Bool.not_eq_true'] at hordered
  exact hordered.1.2.2

/-- Behind a dot and the name of a field an operand goes on. -/
theorem InOrder.exists_behind_member (h : InOrder opens (.goal goal :: symbols)) (hmember : goal.isMember = true) :
    ∃ others, symbols = .form .plain :: .value .trailers :: others := by
  have hfollow := (known_of_ordered h.ordered).2.1 hmember
  unfold followMember at hfollow
  split at hfollow
  · cases hfollow
  · exact ⟨_, rfl⟩
  · cases hfollow

/-- What stands behind a position was read again. -/
theorem ReadsAgain.of_position {text : String} {rest : List Token} {positions : List Nat} {dotted : Bool}
    (h : ReadsAgain (.position :: symbols) found (.literal text :: rest) taken last)
    (hpath : Number.fieldPath? text.toList = some (positions, dotted)) :
    ∃ more, taken = positionTokens dotted positions ++ more ∧ Reads .refused symbols found more more last [] := by
  obtain ⟨_, _, _, _, more, heq, hagain, htaken, hmore⟩ := h.position _ rfl
  cases heq
  rw [hpath] at hagain
  cases hagain
  exact ⟨more, htaken, hmore⟩

/-- The number of a field behind a dot is read again from what was taken. -/
theorem ReadsAgain.member {path : Bool} {text : String} {rest : List Token} {production : List Symbol}
    (hp : valueProduction (.member path) found (.literal text :: rest) = some production)
    (h : ReadsAgain (production ++ .form .plain :: .value .trailers :: symbols) found (.literal text :: rest) taken last) :
    Reads .refused (.value (.member path) :: .form .plain :: .value .trailers :: symbols) found taken taken last [] := by
  simp only [valueProduction] at hp
  split at hp
  · rename_i positions dotted hpath
    have hne := Number.fieldPath?_ne_nil hpath
    obtain ⟨-, -, hbound⟩ := Number.exists_parts_of_fieldPath? hpath
    split_ifs at hp with hdotted
    · -- The dot of the number is the one that the next field stands behind.
      cases hp
      obtain ⟨more, rfl, hmore⟩ := h.of_position hpath
      obtain rfl := hdotted
      rw [positionTokens_true hne, List.append_assoc]
      exact .members hne hbound (.dot hmore.of_form.member_true)
    · cases hp
      obtain ⟨more, rfl, hmore⟩ := h.of_position hpath
      obtain rfl : dotted = false := by simpa using hdotted
      exact .members hne hbound hmore.of_form
  · cases hp

/-- A single number is read again from what was taken. -/
theorem ReadsAgain.single {production : List Symbol}
    (hmember : goal.isMember = true → ∀ text rest, tokens ≠ .literal text :: rest)
    (hp : goal.production found tokens = some (.position :: production))
    (h : ReadsAgain (.position :: production ++ symbols) found tokens taken last) :
    Reads .refused (.position :: production ++ symbols) found taken taken last [] := by
  obtain ⟨text, rest, positions, dotted, more, rfl, hpath, rfl, hmore⟩ := h.position _ rfl
  have hplain : goal.isMember = false := Bool.eq_false_iff.2 fun h => hmember h _ _ rfl
  have hsingle : Number.isPosition text.toList = true := by
    refine (Bool.eq_false_or_eq_true _).resolve_right fun hnone => ?_
    have hall : (goal.production found (.literal text :: rest)).all opensPlainly = true :=
      all_opensPlainly_production hplain hnone
    rw [hp] at hall
    cases hall
  obtain ⟨n, hn⟩ := exists_of_isPosition hsingle
  rw [hn] at hpath
  cases hpath
  obtain ⟨-, -, hbound⟩ := Number.exists_parts_of_fieldPath? hn
  exact .position (hbound n List.mem_cons_self) hmore

/-- What a goal took is read again if what its production took is. -/
theorem ReadsAgain.reads_goal {production : List Symbol} (h : ReadsAgain (production ++ symbols) found tokens taken last)
    (hp : goal.production found tokens = some production) (horder : InOrder opens (.goal goal :: symbols))
    (hreads : Reads .refused (production ++ symbols) found tokens taken last []) :
    Reads .refused (.goal goal :: symbols) found taken taken last [] := by
  by_cases hmember : goal.isMember = true ∧ ∃ text rest, tokens = .literal text :: rest
  · obtain ⟨hmember, text, rest, rfl⟩ := hmember
    obtain ⟨others, rfl⟩ := horder.exists_behind_member hmember
    cases goal with
    | value goal =>
      cases goal with
      | member path => exact h.member hp
      | _ => cases hmember
    | _ => cases hmember
  · have hmember : goal.isMember = true → ∀ text rest, tokens ≠ .literal text :: rest := fun h text rest heq =>
      hmember ⟨h, text, rest, heq⟩
    have hsame := (Reads.goal hp hreads).production_eq horder hmember
    refine .goal (hsame.trans hp) ?_
    by_cases hhead : (production ++ symbols).head? = some .position
    · cases production with
      | nil => exact absurd hhead horder.head_ne_position
      | cons symbol production =>
        obtain rfl : symbol = .position := Option.some.inj hhead
        exact h.single hmember hp
    · exact h.plain hhead

/-- What is read is read again from what was taken. -/
theorem Reads.again {left : List Token} (h : Reads .refused symbols found tokens taken last left) (hleft : left = [])
    (horder : InOrder opens symbols) : ReadsAgain symbols found tokens taken last := by
  -- Each rule is applied again to what it took; only a goal looks ahead, at tokens that are loosened there.
  induction h generalizing opens with
  | nil =>
    subst hleft
    exact ⟨fun _ => .nil, nofun⟩
  | form _ ih => exact ⟨fun _ => .form ((ih hleft horder.behind).plain horder.head_ne_position), nofun⟩
  | goal hp hreads ih =>
    subst hleft
    exact ⟨fun _ => (ih rfl (horder.production hp)).reads_goal hp horder hreads, nofun⟩
  | group _ hinner _ ihInner ihOuter =>
    have hbody := (ihInner (hinner.resolve_left nofun) (inOrder_goal horder.isMember_eq_false)).plain nofun
    exact ⟨fun _ => .group hbody (Or.inr rfl) ((ihOuter hleft horder.behind).plain horder.head_ne_position), nofun⟩
  | terminal ht _ ih =>
    have hrest := (ih hleft horder.behind).plain horder.head_ne_position
    refine ⟨fun hhead => .terminal (takeTerminal?_append ht (by simpa using hhead) _) hrest, ?_⟩
    rintro others heq
    cases heq
    cases takeTerminal?_eq_some_iff.1 ht with
    | position hpath => exact ⟨_, _, _, _, _, rfl, hpath, rfl, hrest⟩

/-- The tokens of an expression are those of the expression that is read from them. -/
theorem ofTokens?_of_ofTokens? {tokens expression : List Token} (h : ofTokens? tokens = some expression) :
    ofTokens? expression = some expression := by
  obtain ⟨last, hreads⟩ := ofTokens?_eq_some_iff.1 h
  exact ofTokens?_eq_some_iff.2 ⟨last, (hreads.again rfl (inOrder_goal rfl)).plain nofun⟩

/-! ## Texts of the same expression -/

/-- The text of an expression has no blanks at its ends. -/
theorem isTight_text_of_parse {text : String} {place : Span} {expression : Expression}
    (h : parse text place = .ok expression) : Text.IsTight expression.text.toList := by
  obtain ⟨-, tokens, htokens, rfl⟩ := parse_eq_ok_iff.1 h
  obtain ⟨source, hsource, hexpression⟩ := Option.bind_eq_some_iff.1 htokens
  rw [Token.text, String.toList_ofList]
  refine Token.isTight_writeAll (legible_of_ofTokens? hexpression (Token.legible_of_read? hsource)) ?_
  rintro rfl
  cases ofTokens?_of_ofTokens? hexpression

/-- The text of an expression is read as this expression. -/
theorem parse_text {text : String} {place : Span} {expression : Expression} (h : parse text place = .ok expression)
    (again : Span) : parse expression.text again = .ok { expression with place := again } := by
  have htight := isTight_text_of_parse h
  have hread := read?_text_of_parse h
  obtain ⟨-, tokens, htokens, rfl⟩ := parse_eq_ok_iff.1 h
  obtain ⟨source, -, hexpression⟩ := Option.bind_eq_some_iff.1 htokens
  refine parse_eq_ok_iff.2 ⟨?_, tokens, ?_, rfl⟩
  · rw [htight.trim_eq]
    exact htight.ne_nil
  · rw [htight.trim_eq]
    exact Option.bind_eq_some_iff.2 ⟨_, hread, ofTokens?_of_ofTokens? hexpression⟩

/-- Blanks around a text do not change the expression. -/
theorem parse_blanks {text : String} {place : Span} {expression : Expression} (h : parse text place = .ok expression)
    {before behind : List Char} (hbefore : ∀ c ∈ before, Text.isBlank c = true)
    (hbehind : ∀ c ∈ behind, Text.isBlank c = true) (again : Span) :
    parse (String.ofList (before ++ (text.toList ++ behind))) again = .ok { expression with place := again } := by
  obtain ⟨hne, tokens, htokens, rfl⟩ := parse_eq_ok_iff.1 h
  have htrim := Text.trim_append_of_isBlank hbefore hbehind text.toList
  rw [← @String.toList_ofList (before ++ (text.toList ++ behind))] at htrim
  refine parse_eq_ok_iff.2 ⟨?_, tokens, ?_, rfl⟩
  · rwa [htrim]
  · rwa [htrim]

/-- A text becomes another one by writing blanks around it and by replacing it by the text of the expression that it is,
as often as one likes. -/
inductive Respelled (text : String) : String → Prop where
  | same : Respelled text text
  | blanks {other : String} {before behind : List Char} : Respelled text other → (∀ c ∈ before, Text.isBlank c = true) →
      (∀ c ∈ behind, Text.isBlank c = true) → Respelled text (String.ofList (before ++ (other.toList ++ behind)))
  | normal {other : String} {place : Span} {expression : Expression} : Respelled text other →
      parse other place = .ok expression → Respelled text expression.text

/-- The expression stays the same. -/
theorem Respelled.parse_eq {text other : String} (h : Respelled text other) {place : Span} {expression : Expression}
    (hparse : parse text place = .ok expression) (again : Span) :
    parse other again = .ok { expression with place := again } := by
  induction h generalizing again with
  | same => simpa using @parse_blanks _ _ _ hparse [] [] nofun nofun again
  | blanks _ hbefore hbehind ih => exact parse_blanks (ih again) hbefore hbehind again
  | @normal other between found _ hfound ih =>
    have htext := parse_text (ih between) again
    rw [ih between] at hfound
    cases hfound
    exact htext

/-- The text of an expression is its normal form: it is read as an equal expression with the same tokens, blanks around a text
do not count, and whether two expressions are the same does not depend on how often, and in what order, their texts were
written with other blanks around them or replaced by the normal form. -/
theorem parse_normal_form {text : String} {place : Span} {expression : Expression}
    (h : parse text place = .ok expression) :
    (∀ again, parse expression.text again = .ok { expression with place := again }) ∧
      (∀ before behind again, (∀ c ∈ before, Text.isBlank c = true) → (∀ c ∈ behind, Text.isBlank c = true) →
        parse (String.ofList (before ++ (text.toList ++ behind))) again = .ok { expression with place := again }) ∧
      ∀ other again, Respelled text other → ∃ respelled, parse other again = .ok respelled ∧
        respelled.tokens = expression.tokens ∧ ∀ third, same respelled third = same expression third :=
  ⟨parse_text h, fun _ _ again hbefore hbehind => parse_blanks h hbefore hbehind again,
    fun _ again hother => ⟨_, hother.parse_eq h again, rfl, fun _ => rfl⟩⟩

/-- A field of a field, a closure without inputs and two references. -/
theorem parse_normal_form_closure :
    ∃ expression, parse "t.0.1||f(||&&x)" ⟨3, 18⟩ = .ok expression ∧ expression.text = "t . 0 . 1 || f (| | & & x)" ∧
      parse "t . 0 . 1 || f (| | & & x)" ⟨0, 26⟩ = .ok { expression with place := ⟨0, 26⟩ } ∧
      parse "\tt.0.1||f(||&&x) \n" ⟨0, 18⟩ = .ok { expression with place := ⟨0, 18⟩ } ∧
      ∃ respelled, parse " t . 0 . 1 || f (| | & & x)" ⟨0, 27⟩ = .ok respelled ∧ respelled.tokens = expression.tokens ∧
        ∀ third, same respelled third = same expression third := by
  obtain ⟨expression, hparse, htext⟩ := Outcome.map_eq_ok_iff.1
    (show (·.text) <$> parse "t.0.1||f(||&&x)" ⟨3, 18⟩ = .ok "t . 0 . 1 || f (| | & & x)" by decide +kernel)
  obtain ⟨hnormal, hblanks, hrespelled⟩ := parse_normal_form hparse
  have hspelling : String.ofList ([' '] ++ (expression.text.toList ++ [])) = " t . 0 . 1 || f (| | & & x)" := by
    rw [htext]
    decide +kernel
  have hbehind : ∀ c ∈ [' ', '\n'], Text.isBlank c = true := List.all_eq_true.1 rfl
  refine ⟨expression, hparse, htext, htext ▸ hnormal ⟨0, 26⟩, ?_, ?_⟩
  · exact hblanks ['\t'] [' ', '\n'] ⟨0, 18⟩ (List.all_eq_true.1 rfl) hbehind
  · rw [← hspelling]
    exact hrespelled _ ⟨0, 27⟩ (.blanks (.normal .same hparse) (List.all_eq_true.1 rfl) nofun)

end PrivateLog.Expression
