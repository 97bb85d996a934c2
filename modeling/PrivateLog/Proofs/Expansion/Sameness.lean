import PrivateLog.Expansion
import PrivateLog.Proofs.Expression.Printing
import PrivateLog.Proofs.Invocation.References
import PrivateLog.Proofs.Outcome
import Mathlib.Data.List.Forall2

/-!
# Code of expressions that are the same

Expressions are the same if their texts are. The text of an expression that was read determines its tokens, because it is read
back (`Expression.tokens_eq_of_parse`), and so does the name of an argument. But an identifier and the argument of this name
have one text and different tokens (`same_code_apart`). So the same expressions have the same tokens exactly if they are made
in the same way, and the same goes for the code of calls (`same_code_iff`): the arguments of a call can be told from its code
(`expand_eq_iff`).
-/

namespace PrivateLog

namespace Expression

/-! ## Where an expression comes from -/

/-- The two ways to make an expression: it is read from a placeholder, or it stands for a named argument. -/
inductive Origin where
  | parsed
  | bound
  deriving DecidableEq, Repr

/-- The expression is made in a certain way. -/
inductive Made : Origin → Expression → Prop where
  | parsed {text : String} {place : Span} {expression : Expression} : parse text place = .ok expression →
      Made .parsed expression
  | bound (name : String) (place : Span) : Made .bound (binding name place)

/-- Expressions that are read have the same tokens if they have the same text. -/
theorem tokens_eq_of_parse {text other : String} {place otherPlace : Span} {a b : Expression}
    (ha : parse text place = .ok a) (hb : parse other otherPlace = .ok b) (h : a.text = b.text) : a.tokens = b.tokens := by
  have hread := read?_text_of_parse ha
  rw [h, read?_text_of_parse hb] at hread
  exact (Option.some.inj hread).symm

/-- An expression that is read never has the tokens of a named argument with the same text. -/
theorem tokens_ne_of_parse {text name : String} {place otherPlace : Span} {expression : Expression}
    (h : parse text place = .ok expression) (hname : expression.text = name) :
    expression.tokens ≠ (binding name otherPlace).tokens := by
  intro htokens
  obtain ⟨-, tokens, -, rfl⟩ := parse_eq_ok_iff.1 h
  simp only [binding] at htokens hname
  rw [htokens, Token.text, Token.writeAll_singleton, Token.write, String.ofList_toList] at hname
  exact localName_ne name hname

/-- Expressions with the same text have the same tokens exactly if they are made in the same way. -/
theorem Made.tokens_eq_iff {o p : Origin} {a b : Expression} (ha : Made o a) (hb : Made p b) (h : a.text = b.text) :
    a.tokens = b.tokens ↔ o = p := by
  cases ha with
  | parsed ha =>
    cases hb with
    | parsed hb => exact iff_of_true (tokens_eq_of_parse ha hb h) rfl
    | bound name place => exact iff_of_false (tokens_ne_of_parse ha h) (by decide)
  | bound name place =>
    cases hb with
    | parsed hb => exact iff_of_false (fun heq => tokens_ne_of_parse hb h.symm heq.symm) (by decide)
    | bound other otherPlace =>
      obtain rfl : name = other := h
      exact iff_of_true rfl rfl

/-- So it is for expressions in a row. -/
theorem map_tokens_eq_iff {origins others : List Origin} {a b : List Expression} (ha : List.Forall₂ Made origins a)
    (hb : List.Forall₂ Made others b) (h : a.map (·.text) = b.map (·.text)) :
    a.map (·.tokens) = b.map (·.tokens) ↔ origins = others := by
  induction ha generalizing others b with
  | nil =>
    obtain rfl := List.map_eq_nil_iff.1 h.symm
    cases hb
    exact iff_of_true rfl rfl
  | cons hmade _ ih =>
    cases hb with
    | nil => cases h
    | cons hother hothers =>
      obtain ⟨htext, htexts⟩ := List.cons.inj h
      rw [List.map_cons, List.map_cons, List.cons.injEq, List.cons.injEq, hmade.tokens_eq_iff hother htext,
        ih hothers htexts]

end Expression

namespace Expansion

/-! ## What the code says about its arguments -/

/-- The expression in round brackets, if a token is that. -/
def enclosed : Token → Option (List Token)
  | .group .parenthesis body => some body
  | _ => none

/-- The expressions of the user stand in round brackets among the arguments, and nothing else does. -/
theorem filterMap_enclosed_arguments (expressions : List Expression) :
    (separated (expressions.map argument)).filterMap enclosed = expressions.map (·.tokens) := by
  have hargument : ∀ expression, (argument expression).filterMap enclosed = [expression.tokens] := fun _ => rfl
  have hcomma : (operator ",").filterMap enclosed = [] := rfl
  induction expressions with
  | nil => rfl
  | cons first expressions ih =>
    cases expressions with
    | nil => exact hargument first
    | cons second expressions =>
      rw [separated, List.map_cons, List.map_cons, List.intersperse_cons_cons, List.flatten_cons, List.flatten_cons,
        List.filterMap_append, List.filterMap_append, hargument, hcomma]
      exact congrArg (first.tokens :: ·) ih

/-- So the arguments are known from the code that renders them. -/
theorem rendering_eq_iff {a b : CompiledCall} (hseverity : a.severity = b.severity) (hformat : a.format = b.format) :
    rendering a = rendering b ↔ a.arguments.map (·.tokens) = b.arguments.map (·.tokens) := by
  have harguments : separated (a.arguments.map argument) = separated (b.arguments.map argument) ↔
      a.arguments.map (·.tokens) = b.arguments.map (·.tokens) := by
    constructor
    · intro h
      rw [← filterMap_enclosed_arguments, h, filterMap_enclosed_arguments]
    · intro h
      have hmap : ∀ expressions : List Expression, expressions.map argument =
          (expressions.map (·.tokens)).map fun tokens =>
            reference tokens ++ word "as" ++ operator "&" ++ word "dyn" ++ path ["loggable", "privacy", "Loggable"] :=
        fun _ => by rw [List.map_map]; rfl
      rw [hmap, h, ← hmap]
  rw [← harguments]
  simp [rendering, hseverity, hformat, terminated, parentheses, brackets]

/-- The code inside a `match` is known from it. -/
theorem bindingNamed_eq_iff (named : List NamedArgument) (a b : List Token) :
    bindingNamed named a = bindingNamed named b ↔ a = b := by
  unfold bindingNamed
  split
  · rfl
  · simp [parentheses, braces]

/-- So the arguments are known from the code of the whole call. -/
theorem expand_eq_iff {a b : CompiledCall} (hseverity : a.severity = b.severity) (hformat : a.format = b.format)
    (logger : Option (List Token)) (named : List NamedArgument) (delivery : Delivery) :
    expand a logger named delivery = expand b logger named delivery ↔
      a.arguments.map (·.tokens) = b.arguments.map (·.tokens) := by
  rw [← rendering_eq_iff hseverity hformat]
  simp [expand, hseverity, braces, bindingNamed_eq_iff]

end Expansion

namespace Invocation

/-! ## Arguments of accepted calls -/

/-- What a text in a placeholder denotes is made in one of the two ways. -/
theorem exists_origin_of_denotes {named : List NamedArgument} {text : List Char} {place : Span} {expression : Expression}
    (h : Template.Denotes named text place expression) : ∃ origin, Expression.Made origin expression := by
  cases h with
  | @argument argument => exact ⟨.bound, .bound argument.name argument.place⟩
  | expression _ hparse => exact ⟨.parsed, .parsed hparse⟩

/-- So in an accepted call each argument is. -/
theorem exists_origins_of_template {invocation : Invocation} {template : Template} (h : invocation.template = .ok template)
    (severity : Severity) :
    ∃ origins, List.Forall₂ Expression.Made origins (template.compile severity).arguments := by
  obtain ⟨items, -, -, hreads⟩ := Template.read_eq_ok_iff_reads.1 (template_eq_ok_iff.1 h)
  have hbodies := Template.forall₂_bodies hreads
  rw [Template.filterMap_spread] at hbodies
  rw [Template.compile_arguments]
  generalize Template.bodies _ = bodies, template.placeholders = parts at hbodies ⊢
  induction hbodies with
  | nil => exact ⟨[], .nil⟩
  | cons hpart _ ih =>
    obtain ⟨origins, horigins⟩ := ih
    obtain ⟨text, place, -, hdenotes⟩ := hpart
    obtain ⟨origin, hmade⟩ := exists_origin_of_denotes hdenotes
    exact ⟨origin :: origins, .cons hmade horigins⟩

end Invocation

namespace Expansion

/-! ## Same expressions, same code -/

open Expression (Origin Made)

/-- Expressions that are the same have the same tokens exactly if they are made in the same way. So calls that are the same
are replaced by the same code, whatever the logger, the named arguments and the delivery are, exactly if the arguments at each
place are made in the same way. -/
theorem same_code_iff :
    (∀ {o p : Origin} {a b : Expression}, Made o a → Made p b → a.same b = true → (a.tokens = b.tokens ↔ o = p)) ∧
      ∀ {origins others : List Origin} {a b : CompiledCall}, List.Forall₂ Made origins a.arguments →
        List.Forall₂ Made others b.arguments → a.same b = true →
          ∀ (logger : Option (List Token)) (named : List NamedArgument) (delivery : Delivery),
            expand a logger named delivery = expand b logger named delivery ↔ origins = others := by
  refine ⟨fun ha hb h => ha.tokens_eq_iff hb (eq_of_beq h), fun ha hb h logger named delivery => ?_⟩
  simp only [CompiledCall.same, Bool.and_eq_true, beq_iff_eq] at h
  obtain ⟨⟨hseverity, hformat⟩, htexts⟩ := h
  rw [expand_eq_iff hseverity hformat, Expression.map_tokens_eq_iff ha hb htexts]

/-- A sum with blanks and one without, each beside a named argument. -/
theorem same_code_iff_sum :
    ∃ a b : Expression, Expression.parse "x+1" ⟨1, 4⟩ = .ok a ∧ Expression.parse " x + 1 " ⟨7, 14⟩ = .ok b ∧
      a.same b = true ∧ a.tokens = b.tokens ∧
      expand ⟨.info, "%s %s", [a, Expression.binding "n" ⟨5, 6⟩]⟩ none [⟨"n", ⟨5, 6⟩, [.literal "1"]⟩] .awaited =
        expand ⟨.info, "%s %s", [b, Expression.binding "n" ⟨15, 16⟩]⟩ none [⟨"n", ⟨5, 6⟩, [.literal "1"]⟩] .awaited := by
  obtain ⟨a, ha, hatext⟩ := Outcome.map_eq_ok_iff.1
    (show (·.text) <$> Expression.parse "x+1" ⟨1, 4⟩ = .ok "x + 1" by decide +kernel)
  obtain ⟨b, hb, hbtext⟩ := Outcome.map_eq_ok_iff.1
    (show (·.text) <$> Expression.parse " x + 1 " ⟨7, 14⟩ = .ok "x + 1" by decide +kernel)
  have hsame : a.same b = true := by
    rw [Expression.same, hatext, hbtext]
    rfl
  refine ⟨a, b, ha, hb, hsame, (same_code_iff.1 (.parsed ha) (.parsed hb) hsame).2 rfl, ?_⟩
  refine (same_code_iff.2 (.cons (.parsed ha) (.cons (.bound "n" ⟨5, 6⟩) .nil))
    (.cons (.parsed hb) (.cons (.bound "n" ⟨15, 16⟩) .nil)) ?_ none _ .awaited).2 rfl
  simp [CompiledCall.same, hatext, hbtext, Expression.binding]

/-- The identifier `n` and a named argument of this name are the same, but they have different tokens, and calls with the one
or the other are the same, but they are replaced by different code. -/
theorem same_code_apart :
    ∃ expression, Expression.parse "n" ⟨0, 1⟩ = .ok expression ∧
      expression.same (Expression.binding "n" ⟨0, 1⟩) = true ∧
      expression.tokens ≠ (Expression.binding "n" ⟨0, 1⟩).tokens ∧
      CompiledCall.same ⟨.info, "%s", [expression]⟩ ⟨.info, "%s", [Expression.binding "n" ⟨0, 1⟩]⟩ = true ∧
      expand ⟨.info, "%s", [expression]⟩ none [⟨"n", ⟨0, 1⟩, [.literal "1"]⟩] .immediate ≠
        expand ⟨.info, "%s", [Expression.binding "n" ⟨0, 1⟩]⟩ none [⟨"n", ⟨0, 1⟩, [.literal "1"]⟩] .immediate := by
  obtain ⟨expression, hparse, htext⟩ := Outcome.map_eq_ok_iff.1
    (show (·.text) <$> Expression.parse "n" ⟨0, 1⟩ = .ok "n" by decide +kernel)
  have htokens : expression.tokens ≠ (Expression.binding "n" ⟨0, 1⟩).tokens := Expression.tokens_ne_of_parse hparse htext
  refine ⟨expression, hparse, ?_, htokens, ?_, fun hcode => htokens ?_⟩
  · rw [Expression.same, htext]
    rfl
  · simp [CompiledCall.same, htext, Expression.binding]
  · have harguments := (@expand_eq_iff ⟨.info, "%s", [expression]⟩ ⟨.info, "%s", [Expression.binding "n" ⟨0, 1⟩]⟩ rfl rfl
      none _ .immediate).1 hcode
    exact (List.cons.inj harguments).1

end Expansion

end PrivateLog
