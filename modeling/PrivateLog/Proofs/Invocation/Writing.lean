import PrivateLog.Invocation
import PrivateLog.Proofs.Expression.Boundary
import PrivateLog.Proofs.Outcome

/-!
# How a logging call is written

A logging call is read back from the tokens it is written with, and no other tokens are read as one
(`ofTokens_eq_ok_iff_written`). It is written as an optional logger, a template and named arguments (`Written`), and perhaps a
comma at the end (`EndsCall`). Each expression in it is anything that is an expression on its own: when a call is read, an
expression ends exactly where it ends on its own, since only a comma or the end stands behind it.
-/

namespace PrivateLog.Invocation

open Expression (EndsExpression)

/-- Named arguments with a comma in front of each. From left to right: the arguments, and the tokens they are written with. -/
inductive Arguments : List NamedArgument → List (Located Token) → Prop where
  | nil : Arguments [] []
  | cons {name : String} {expression : List Token} {named : List NamedArgument} {comma place sign : Span}
      {before behind : Spacing} {value rest : List (Located Token)} :
      Expression.isNameText name = true → Expression.ofTokens? (value.map (·.value)) = some expression →
      Arguments named rest →
      Arguments (⟨name, place, expression⟩ :: named)
        (⟨.punct ',' before, comma⟩ :: ⟨.ident name, place⟩ :: ⟨.punct '=' behind, sign⟩ :: (value ++ rest))

/-- What stands in front of the template: nothing, or a logger that is no text literal, and a comma. -/
inductive Destination : Option (List Token) → List (Located Token) → Prop where
  | none : Destination none []
  | logger {expression : List Token} {comma : Span} {spacing : Spacing} {value : List (Located Token)} :
      startsTemplate value = false → Expression.ofTokens? (value.map (·.value)) = some expression →
      Destination (some expression) (value ++ [⟨.punct ',' spacing, comma⟩])

/-- A logging call without a comma at its end, and the tokens it is written with. -/
inductive Written : Invocation → List (Located Token) → Prop where
  | mk {logger : Option (List Token)} {text value : String} {place : Span} {named : List NamedArgument}
      {front rest : List (Located Token)} :
      Destination logger front → StringLiteral.value? text = some value → Arguments named rest →
      Written ⟨logger, ⟨text, place⟩, value, named⟩ (front ++ ⟨.literal text, place⟩ :: rest)

/-- What may stand behind a logging call: nothing, or a comma. -/
def EndsCall (rest : List (Located Token)) : Prop :=
  rest = [] ∨ ∃ spacing place, rest = [⟨.punct ',' spacing, place⟩]

/-- Whether some tokens begin with a name and the sign behind it. -/
def StartsArgument (tokens : List (Located Token)) : Prop :=
  ∃ name place spacing sign rest, Expression.isNameText name = true ∧
    tokens = ⟨.ident name, place⟩ :: ⟨.punct '=' spacing, sign⟩ :: rest

/-! ## Expressions -/

/-- An expression of a call is read from the tokens in front of what is left. -/
theorem readExpression?_eq_some_iff {leftovers : Expression.Leftovers} {tokens rest : List (Located Token)}
    {expression : List Token} :
    readExpression? leftovers tokens = some (expression, rest) ↔
      rest <:+ tokens ∧ Expression.readFrom leftovers (tokens.map (·.value)) = some (expression, rest.map (·.value)) := by
  rw [readExpression?, Option.bind_eq_bind, Option.bind_eq_some_iff]
  constructor
  · rintro ⟨⟨expression', left⟩, hread, h⟩
    obtain ⟨last, hreads⟩ := Expression.readFrom_eq_some_iff.1 hread
    have hleft := List.suffix_iff_eq_drop.1 hreads.left_suffix
    rw [List.length_map, ← List.map_drop] at hleft
    cases h
    exact ⟨List.drop_suffix _ _, by rw [← hleft]; exact hread⟩
  · rintro ⟨hsuffix, hread⟩
    have hdrop : tokens.drop (tokens.length - (rest.map (·.value)).length) = rest := by
      rw [List.length_map]
      exact (List.suffix_iff_eq_drop.1 hsuffix).symm
    exact ⟨_, hread, congrArg (fun rest => some (expression, rest)) hdrop⟩

/-- In front of a comma or the end, it is read where it is an expression on its own. -/
theorem readExpression?_append {leftovers : Expression.Leftovers} {value rest : List (Located Token)}
    {expression : List Token} (hrest : EndsExpression (rest.map (·.value))) :
    readExpression? leftovers (value ++ rest) = some (expression, rest) ↔
      Expression.readFrom leftovers (value.map (·.value)) = some (expression, []) := by
  rw [readExpression?_eq_some_iff, and_iff_right (List.suffix_append value rest), List.map_append]
  exact @Expression.readFrom_append leftovers _ _ expression [] hrest

/-- An expression on its own is one that leaves nothing. -/
theorem readFrom_refused_iff {tokens expression : List Token} :
    Expression.readFrom .refused tokens = some (expression, []) ↔ Expression.ofTokens? tokens = some expression := by
  rw [Expression.ofTokens?_eq_some_iff, Expression.readFrom_eq_some_iff]

/-- What may be left over inside brackets changes nothing where nothing is. -/
theorem readExpression?_kept_of_refused {tokens rest : List (Located Token)} {expression : List Token}
    (h : readExpression? .refused tokens = some (expression, rest)) :
    readExpression? .kept tokens = some (expression, rest) := by
  obtain ⟨hsuffix, hread⟩ := readExpression?_eq_some_iff.1 h
  exact readExpression?_eq_some_iff.2 ⟨hsuffix, Expression.readFrom_kept_of_refused hread⟩

/-! ## Named arguments -/

variable {named : List NamedArgument} {tokens rest : List (Located Token)}

/-- A call ends where an expression does. -/
theorem EndsCall.endsExpression (h : EndsCall rest) : EndsExpression (rest.map (·.value)) := by
  rcases h with rfl | ⟨spacing, place, rfl⟩
  · exact Or.inl rfl
  · exact Or.inr ⟨spacing, [], rfl⟩

/-- Named arguments stand where an expression ends. -/
theorem Arguments.endsExpression (h : Arguments named tokens) (hrest : EndsExpression (rest.map (·.value))) :
    EndsExpression ((tokens ++ rest).map (·.value)) := by
  cases h with
  | nil => exact hrest
  | cons => exact Or.inr ⟨_, _, rfl⟩

/-- Written arguments are read, and then what is behind them. -/
theorem readNamed?_append (h : Arguments named tokens) (hrest : EndsExpression (rest.map (·.value))) (fuel : Nat) :
    readNamed? (fuel + named.length) (tokens ++ rest) = (named ++ ·) <$> readNamed? fuel rest := by
  induction h with
  | nil => exact Option.map_id'.symm
  | @cons name expression named comma place sign before behind value tokens hname hvalue hmore ih =>
    have hread := (readExpression?_append (hmore.endsExpression hrest)).2 (readFrom_refused_iff.2 hvalue)
    have hguard : guard (f := Option) (Expression.isNameText name = true) = some () := if_pos hname
    rw [List.length_cons, ← Nat.add_assoc, List.cons_append, List.cons_append, List.cons_append, List.append_assoc,
      readNamed?, hguard]
    simp only [Option.bind_eq_bind, Option.bind_some, hread, ih]
    cases readNamed? fuel rest <;> rfl

/-- What is read as named arguments is written as such, with a comma at the end perhaps. -/
theorem exists_arguments_of_readNamed? {fuel : Nat} (h : readNamed? fuel tokens = some named) :
    ∃ arguments rest, tokens = arguments ++ rest ∧ Arguments named arguments ∧ EndsCall rest := by
  induction fuel generalizing tokens named with
  | zero => cases h
  | succ fuel ih =>
    unfold readNamed? at h
    split at h
    · cases h
    · cases h
      exact ⟨[], [], rfl, .nil, Or.inl rfl⟩
    · rename_i spacing comma tokens heq
      obtain rfl := Nat.succ.inj heq
      split at h
      · cases h
        exact ⟨[], _, rfl, .nil, Or.inr ⟨spacing, comma, rfl⟩⟩
      · rename_i name place behind sign rest
        obtain ⟨⟨⟩, hguard, h⟩ := Option.bind_eq_some_iff.1 h
        have hname := (Option.guard_eq_some' _).1 hguard
        obtain ⟨⟨expression, rest'⟩, hread, h⟩ := Option.bind_eq_some_iff.1 h
        obtain ⟨named', hnamed, h⟩ := Option.bind_eq_some_iff.1 h
        cases h
        obtain ⟨arguments, tail, rfl, harguments, htail⟩ := ih hnamed
        obtain ⟨value, rfl⟩ := (readExpression?_eq_some_iff.1 hread).1
        have hends := harguments.endsExpression htail.endsExpression
        have hvalue := readFrom_refused_iff.1 ((readExpression?_append hends).1 hread)
        refine ⟨⟨.punct ',' spacing, comma⟩ :: ⟨.ident name, place⟩ :: ⟨.punct '=' behind, sign⟩ :: (value ++ arguments),
          tail, ?_, .cons hname hvalue harguments, htail⟩
        simp
      · cases h
    · cases h

/-- At the end of a call no argument is read. -/
theorem readNamed?_of_endsCall (h : EndsCall rest) (fuel : Nat) : readNamed? (fuel + 1) rest = some [] := by
  rcases h with rfl | ⟨spacing, place, rfl⟩ <;> rfl

/-- Arguments are written with more tokens than there are arguments. -/
theorem Arguments.length_le (h : Arguments named tokens) : named.length ≤ tokens.length := by
  induction h with
  | nil => exact Nat.le_refl _
  | cons _ _ _ ih =>
    simp only [List.length_cons, List.length_append]
    omega

/-! ## Calls -/

/-- A call with more arguments. -/
def withMore (invocation : Invocation) (more : List NamedArgument) : Invocation :=
  { invocation with named := invocation.named ++ more }

variable {invocation : Invocation} {logger : Option (List Token)}

/-- A template with its arguments is read, and then what is behind them. -/
theorem readTemplate_append {text value : String} {place : Span} (hvalue : StringLiteral.value? text = some value)
    (h : Arguments named tokens) (hrest : EndsExpression (rest.map (·.value))) :
    ∃ fuel, readTemplate logger (⟨.literal text, place⟩ :: (tokens ++ rest)) =
      match readNamed? (fuel + 1) rest with
      | some more => .ok (withMore ⟨logger, ⟨text, place⟩, value, named⟩ more)
      | none => .error .ungrammatical := by
  obtain ⟨fuel, hfuel⟩ := Nat.exists_eq_add_of_le' h.length_le
  refine ⟨fuel + rest.length, ?_⟩
  have hsteps : (tokens ++ rest).length + 1 = fuel + rest.length + 1 + named.length := by
    rw [List.length_append, hfuel]
    omega
  rw [readTemplate, hvalue, hsteps]
  dsimp only
  rw [readNamed?_append h hrest]
  cases readNamed? (fuel + rest.length + 1) rest <;> rfl

/-- What is read as a template is a text literal in front of named arguments. -/
theorem exists_arguments_of_readTemplate (h : readTemplate logger tokens = .ok invocation) :
    ∃ text value place named arguments rest, tokens = ⟨.literal text, place⟩ :: (arguments ++ rest) ∧
      StringLiteral.value? text = some value ∧ Arguments named arguments ∧ EndsCall rest ∧
      invocation = ⟨logger, ⟨text, place⟩, value, named⟩ := by
  unfold readTemplate at h
  split at h
  · cases h
  · rename_i text place tokens
    split at h
    · cases h
    · rename_i value hvalue
      split at h
      · rename_i named hnamed
        cases h
        obtain ⟨arguments, rest, rfl, harguments, hrest⟩ := exists_arguments_of_readNamed? hnamed
        exact ⟨_, _, _, _, _, _, rfl, hvalue, harguments, hrest, rfl⟩
      · cases h
  · cases h

/-- Whether an expression is a text literal does not depend on what stands behind a comma. -/
theorem startsTemplate_append (value : List (Located Token)) (spacing : Spacing) (comma : Span) :
    startsTemplate (value ++ ⟨.punct ',' spacing, comma⟩ :: rest) = startsTemplate value := by
  cases value with
  | nil => rfl
  | cons token value =>
    obtain ⟨token, place⟩ := token
    cases token <;> rfl

/-- A written call is read, and then what is behind it. -/
theorem ofTokens_append (h : Written invocation tokens) (hrest : EndsExpression (rest.map (·.value))) :
    ∃ fuel, ofTokens (tokens ++ rest) =
      match readNamed? (fuel + 1) rest with
      | some more => .ok (withMore invocation more)
      | none => .error .ungrammatical := by
  obtain ⟨hfront, hvalue, harguments⟩ := h
  rename_i text value place named front arguments
  obtain ⟨fuel, hread⟩ := readTemplate_append hvalue harguments hrest
  refine ⟨fuel, ?_⟩
  rw [← hread, List.append_assoc, List.cons_append]
  cases hfront with
  | none =>
    have hstarts : startsTemplate (⟨.literal text, place⟩ :: (arguments ++ rest)) = true := by
      rw [startsTemplate, hvalue, Option.isSome_some]
    rw [List.nil_append, ofTokens, hstarts]
    rfl
  | @logger expression comma spacing front hstarts hexpression =>
    have hcomma : EndsExpression
        ((⟨.punct ',' spacing, comma⟩ :: ⟨.literal text, place⟩ :: (arguments ++ rest) : List (Located Token)).map
          (·.value)) := Or.inr ⟨spacing, _, rfl⟩
    have hrefused := (readExpression?_append hcomma).2 (readFrom_refused_iff.2 hexpression)
    have hkept := readExpression?_kept_of_refused hrefused
    have hempty : (front ++ ⟨.punct ',' spacing, comma⟩ :: ⟨.literal text, place⟩ :: (arguments ++ rest)).isEmpty = false := by
      cases front <;> rfl
    rw [List.append_assoc, List.singleton_append, ofTokens, hempty, startsTemplate_append, hstarts, hkept, hrefused]
    simp only [Bool.false_eq_true, if_false, Option.isSome_some, if_true]
    cases readTemplate (some expression) (⟨.literal text, place⟩ :: (arguments ++ rest)) <;> rfl

/-- What is read as a call is written as one, with a comma at the end perhaps. -/
theorem exists_written_of_ofTokens (h : ofTokens tokens = .ok invocation) :
    ∃ call rest, tokens = call ++ rest ∧ Written invocation call ∧ EndsCall rest := by
  unfold ofTokens at h
  split at h
  · cases h
  · split at h
    · obtain ⟨text, value, place, named, arguments, rest, rfl, hvalue, harguments, hrest, rfl⟩ :=
        exists_arguments_of_readTemplate h
      exact ⟨_, rest, rfl, .mk .none hvalue harguments, hrest⟩
    · rename_i hstarts
      split at h
      · rename_i expression spacing comma behind hkept
        obtain ⟨invocation', htemplate, h⟩ := Outcome.bind_eq_ok_iff.1 h
        split at h
        · rename_i hrefused
          cases h
          obtain ⟨text, value, place, named, arguments, rest, rfl, hvalue, harguments, hrest, rfl⟩ :=
            exists_arguments_of_readTemplate htemplate
          obtain ⟨front, rfl⟩ := (readExpression?_eq_some_iff.1 hkept).1
          rw [startsTemplate_append, Bool.not_eq_true] at hstarts
          obtain ⟨⟨expression', left⟩, hread⟩ := Option.isSome_iff_exists.1 hrefused
          have heq := readExpression?_kept_of_refused hread
          rw [hkept] at heq
          cases heq
          have hexpression := readFrom_refused_iff.1 ((readExpression?_append (Or.inr ⟨spacing, _, rfl⟩)).1 hread)
          refine ⟨front ++ [⟨.punct ',' spacing, comma⟩] ++ ⟨.literal text, place⟩ :: arguments, rest, ?_,
            .mk (.logger hstarts hexpression) hvalue harguments, hrest⟩
          simp
        · cases h
      · cases h

/-- A logging call is read from the tokens it is written with, with or without a comma at the end, and from no others. So
behind a call and a comma stands nothing or another argument, or else it is no call. -/
theorem ofTokens_eq_ok_iff_written :
    (∀ tokens invocation, ofTokens tokens = .ok invocation ↔
      ∃ call rest, tokens = call ++ rest ∧ Written invocation call ∧ EndsCall rest) ∧
    (∀ call invocation spacing place rest, Written invocation call →
      (∃ more, ofTokens (call ++ ⟨.punct ',' spacing, place⟩ :: rest) = .ok more) → rest = [] ∨ StartsArgument rest) := by
  constructor
  · intro tokens invocation
    constructor
    · exact exists_written_of_ofTokens
    · rintro ⟨call, rest, rfl, hcall, hrest⟩
      obtain ⟨fuel, hread⟩ := ofTokens_append hcall hrest.endsExpression
      rw [hread, readNamed?_of_endsCall hrest]
      simp [withMore]
  · rintro call invocation spacing place rest hcall ⟨more, hmore⟩
    obtain ⟨fuel, hread⟩ := @ofTokens_append _ (⟨.punct ',' spacing, place⟩ :: rest) _ hcall (Or.inr ⟨spacing, _, rfl⟩)
    rw [hread] at hmore
    split at hmore
    · rename_i named hnamed
      obtain ⟨arguments, tail, htokens, harguments, htail⟩ := exists_arguments_of_readNamed? hnamed
      cases harguments with
      | nil =>
        rcases htail with rfl | ⟨spacing', place', rfl⟩
        · cases htokens
        · cases htokens
          exact Or.inl rfl
      | cons hname =>
        cases htokens
        exact Or.inr ⟨_, _, _, _, _, hname, rfl⟩
    · cases hmore

/-- The comma between the inputs of a closure belongs to the closure; behind the comma that follows it stands the next
argument: `"t", f = |x, y| x, n = x`. -/
theorem startsArgument_behind_closure :
    let closure : List (Located Token) :=
      [⟨.punct '|' .alone, ⟨9, 10⟩⟩, ⟨.ident "x", ⟨10, 11⟩⟩, ⟨.punct ',' .alone, ⟨11, 12⟩⟩, ⟨.ident "y", ⟨13, 14⟩⟩,
        ⟨.punct '|' .alone, ⟨14, 15⟩⟩, ⟨.ident "x", ⟨16, 17⟩⟩]
    let arguments : List (Located Token) :=
      ⟨.punct ',' .alone, ⟨3, 4⟩⟩ :: ⟨.ident "f", ⟨5, 6⟩⟩ :: ⟨.punct '=' .alone, ⟨7, 8⟩⟩ :: (closure ++ [])
    let call : List (Located Token) := ⟨.literal "\"t\"", ⟨0, 3⟩⟩ :: arguments
    let rest : List (Located Token) :=
      [⟨.ident "n", ⟨19, 20⟩⟩, ⟨.punct '=' .alone, ⟨21, 22⟩⟩, ⟨.ident "x", ⟨23, 24⟩⟩]
    Written ⟨none, ⟨"\"t\"", ⟨0, 3⟩⟩, "t", [⟨"f", ⟨5, 6⟩, closure.map (·.value)⟩]⟩ call ∧
      (∃ more, ofTokens (call ++ ⟨.punct ',' .alone, ⟨17, 18⟩⟩ :: rest) = .ok more) ∧
      (rest = [] ∨ StartsArgument rest) := by
  intro closure arguments call rest
  have htext : StringLiteral.value? "\"t\"" = some "t" := rfl
  have harguments : Arguments [⟨"f", ⟨5, 6⟩, closure.map (·.value)⟩] arguments := .cons rfl rfl .nil
  have hcall : Written ⟨none, ⟨"\"t\"", ⟨0, 3⟩⟩, "t", [⟨"f", ⟨5, 6⟩, closure.map (·.value)⟩]⟩ call :=
    (Written.mk .none htext harguments :)
  have hmore : ∃ more, ofTokens (call ++ ⟨.punct ',' .alone, ⟨17, 18⟩⟩ :: rest) = .ok more := ⟨_, rfl⟩
  exact ⟨hcall, hmore, ofTokens_eq_ok_iff_written.2 call _ .alone ⟨17, 18⟩ rest hcall hmore⟩

end PrivateLog.Invocation
