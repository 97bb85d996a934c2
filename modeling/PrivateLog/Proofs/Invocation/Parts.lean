import PrivateLog.Invocation
import PrivateLog.Proofs.Outcome
import Mathlib.Data.Option.Basic

/-!
# What a logging call is read from

The template literal of a logging call and the names of its arguments are tokens of the source (`exists_tokens_of_ofSource`).
-/

namespace PrivateLog.Invocation

/-- The parts of the logging call are among the tokens: its literal, which is read as the value, and its names. -/
structure ConsistsOf (invocation : Invocation) (tokens : List (Located Token)) : Prop where
  literal : ⟨.literal invocation.literal.value, invocation.literal.span⟩ ∈ tokens
  value : StringLiteral.value? invocation.literal.value = some invocation.value
  names : ∀ argument ∈ invocation.named, ⟨.ident argument.name, argument.place⟩ ∈ tokens

/-- What some tokens hold is in more tokens too. -/
theorem ConsistsOf.mono {invocation : Invocation} {tokens more : List (Located Token)} (h : invocation.ConsistsOf tokens)
    (hmore : ∀ token ∈ tokens, token ∈ more) : invocation.ConsistsOf more :=
  ⟨hmore _ h.literal, h.value, fun argument hm => hmore _ (h.names argument hm)⟩

/-- Behind an expression stand tokens that stood there before. -/
theorem mem_of_readExpression? {leftovers : Expression.Leftovers} {tokens rest : List (Located Token)}
    {expression : List Token} (h : readExpression? leftovers tokens = some (expression, rest)) :
    ∀ token ∈ rest, token ∈ tokens := by
  obtain ⟨⟨expression', rest'⟩, -, h⟩ := Option.bind_eq_some_iff.1 h
  cases h
  exact fun token hm => List.mem_of_mem_drop hm

/-- The names of arguments are identifiers among the tokens. -/
theorem mem_of_readNamed? {fuel : Nat} {tokens : List (Located Token)} {named : List NamedArgument}
    (h : readNamed? fuel tokens = some named) :
    ∀ argument ∈ named, ⟨.ident argument.name, argument.place⟩ ∈ tokens := by
  induction fuel generalizing tokens named with
  | zero => cases h
  | succ fuel ih =>
    unfold readNamed? at h
    split at h
    · cases h
    · cases h
      exact fun argument hm => absurd hm List.not_mem_nil
    · split at h
      · cases h
        exact fun argument hm => absurd hm List.not_mem_nil
      · obtain ⟨-, -, h⟩ := Option.bind_eq_some_iff.1 h
        obtain ⟨⟨value, rest⟩, hvalue, h⟩ := Option.bind_eq_some_iff.1 h
        obtain ⟨named', hnamed, h⟩ := Option.bind_eq_some_iff.1 h
        cases h
        obtain rfl := Nat.succ.inj ‹fuel + 1 = Nat.succ _›
        refine List.forall_mem_cons.2 ⟨by simp, fun argument hm => ?_⟩
        have hrest := mem_of_readExpression? hvalue _ (ih hnamed argument hm)
        simp [hrest]
      · cases h
    · cases h

/-- Where a template stands first, it and the names behind it are the parts of the call. -/
theorem consistsOf_of_readTemplate {logger : Option (List Token)} {tokens : List (Located Token)} {invocation : Invocation}
    (h : readTemplate logger tokens = .ok invocation) : invocation.ConsistsOf tokens := by
  unfold readTemplate at h
  split at h
  · cases h
  · split at h
    · cases h
    · rename_i value hvalue
      split at h
      · rename_i named hnamed
        cases h
        refine ⟨List.mem_cons_self, hvalue, fun argument hm => ?_⟩
        exact List.mem_cons_of_mem _ (mem_of_readNamed? hnamed argument hm)
      · cases h
  · cases h

/-- So are they in a whole logging call. -/
theorem consistsOf_of_ofTokens {tokens : List (Located Token)} {invocation : Invocation}
    (h : ofTokens tokens = .ok invocation) : invocation.ConsistsOf tokens := by
  unfold ofTokens at h
  split at h
  · cases h
  · split at h
    · exact consistsOf_of_readTemplate h
    · split at h
      · rename_i logger comma span rest hlogger
        obtain ⟨invocation', htemplate, h⟩ := Outcome.bind_eq_ok_iff.1 h
        split at h
        · cases h
          refine (consistsOf_of_readTemplate htemplate).mono fun token hm => ?_
          exact mem_of_readExpression? hlogger _ (List.mem_cons_of_mem _ hm)
        · cases h
      · cases h

/-- The parts of a logging call are tokens of its source. -/
theorem exists_tokens_of_ofSource {source : String} {invocation : Invocation} (h : ofSource source = .ok invocation) :
    ∃ tokens, Token.locate? source.toList = some tokens ∧ invocation.ConsistsOf tokens := by
  unfold ofSource at h
  split at h
  · rename_i tokens hlocate
    exact ⟨tokens, hlocate, consistsOf_of_ofTokens h⟩
  · cases h

/-- The template of a logging call is what reading its value yields. -/
theorem template_eq_ok_iff {invocation : Invocation} {template : Template} :
    invocation.template = .ok template ↔
      Template.read invocation.value.toList invocation.named invocation.place = .ok template := by
  unfold Invocation.template
  cases Template.read invocation.value.toList invocation.named invocation.place <;> simp

/-- It is rejected with the diagnostic that reading its value fails with. -/
theorem template_eq_error_iff_read {invocation : Invocation} {error : SourceError} :
    invocation.template = .error error ↔ ∃ diagnostic, error = .diagnostic diagnostic ∧
      Template.read invocation.value.toList invocation.named invocation.place = .error diagnostic := by
  unfold Invocation.template
  cases Template.read invocation.value.toList invocation.named invocation.place with
  | ok template => simp
  | error diagnostic => simp [eq_comm]

end PrivateLog.Invocation
