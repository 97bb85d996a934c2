import PrivateLog.Proofs.Expansion.Written
import PrivateLog.Proofs.Invocation.References
import PrivateLog.Proofs.Template.Compilation
import PrivateLog.Proofs.Token.Literal

/-!
# What the code of a logging call evaluates

The code of an accepted call takes the value of each named argument once, then renders the record from one argument for each
placeholder, and then hands it to the logger, all of it only if the severity is enabled (`Expansion.Arranged`). A placeholder
that names an argument supplies the local of that argument, and no local is idle (`supplies_of_template`,
`exists_argument_of_template`). `expand_arranged` puts these together with the format that the code renders.
-/

namespace PrivateLog

open Code

/-! ## What placeholders supply -/

namespace Template

/-- What the body of a placeholder is compiled to: the local of the argument that it names, or, if it names none, the expression
that its text is read as. -/
inductive Supplies (named : List NamedArgument) (body : List Char) (expression : Expression) : Prop where
  | bound {argument : NamedArgument} : argument ∈ named → Names body argument.name →
      expression.tokens = [.ident (Expression.localName argument.name)] → Supplies named body expression
  | read {modifier : Option Modifier} {text : List Char} {place : Span} : Splits body modifier text →
      (∀ argument ∈ named, ¬Names body argument.name) →
      Expression.parse (String.ofList (Text.trim text)) place = .ok expression → Supplies named body expression

/-- A text supplies what it stands for. -/
theorem supplies_of_denotes {named : List NamedArgument} {body text : List Char} {modifier : Option Modifier} {place : Span}
    {expression : Expression} (hs : Splits body modifier text) (h : Denotes named text place expression) :
    Supplies named body expression := by
  cases h with
  | argument hm hname => exact .bound hm ((names_iff_of_splits hs).2 hname.symm) rfl
  | expression hnone hparse =>
    refine .read hs (fun argument hm hnames => ?_) hparse
    exact hnone argument hm ((names_iff_of_splits hs).1 hnames).symm

/-- A body that names an argument supplies the local of that argument. -/
theorem Supplies.tokens_of_names {named : List NamedArgument} {body : List Char} {expression : Expression}
    (h : Supplies named body expression) {argument : NamedArgument} (hm : argument ∈ named)
    (hnames : Names body argument.name) : expression.tokens = [.ident (Expression.localName argument.name)] := by
  cases h with
  | read _ hnone _ => exact absurd hnames (hnone argument hm)
  | @bound other _ hother htokens =>
    obtain ⟨modifier, text, hs, hname⟩ := hnames
    rw [htokens, ← hname, (names_iff_of_splits hs).1 hother]

end Template

/-- What is in the first of two rows that are related one by one is related to something in the second. -/
theorem exists_of_forall₂ {α β : Type} {R : α → β → Prop} {row : List α} {others : List β} (h : List.Forall₂ R row others)
    {a : α} (ha : a ∈ row) : ∃ b ∈ others, R a b := by
  induction h with
  | nil => exact absurd ha List.not_mem_nil
  | cons hhead _ ih =>
    rcases List.mem_cons.1 ha with rfl | ha
    · exact ⟨_, List.mem_cons_self, hhead⟩
    · obtain ⟨b, hb, hrelated⟩ := ih ha
      exact ⟨b, List.mem_cons_of_mem _ hb, hrelated⟩

/-! ## Where the parts of the user are -/

namespace Expansion

/-- Where the parts of the user are in the code of a call, and how often. -/
structure Arranged (named : List NamedArgument) (logger : Option (List Token)) (call : CompiledCall) (delivery : Delivery)
    (code : List (Code (List Token))) : Prop where
  /-- Each value is taken once, then come the arguments, and then the logger if there is one. -/
  order : parts code = named.map (·.value) ++ call.arguments.map (·.tokens) ++ logger.toList
  /-- Each part stands alone between round brackets. -/
  enclosed : Enclosed code
  /-- Everything is in the block of the severity: first the record, of which the rendering holds the arguments and stands in
  a `match` that binds the values to their locals, and then what holds the logger. Nothing waits before. -/
  guarded : ∃ rendering handing,
    code = Expansion.guarded call.severity (recorded (matched (taken named) rendering) ++ handing) ∧
      parts rendering = call.arguments.map (·.tokens) ∧ parts handing = logger.toList ∧
      selected isAwait (recorded (matched (taken named) rendering)) = []
  /-- The code waits once if the delivery does, and else not at all. -/
  waits : selected isAwait code = if delivery = .awaited then [.ident "await"] else []
  /-- The only literal is that of the format. -/
  literal : selected isLiteral code = formatLiteral call.format

/-- No local is the word that waits. -/
theorem ne_await_of_mem_taken (named : List NamedArgument) : ∀ entry ∈ taken named, entry.1 ≠ "await" := by
  refine List.forall_mem_map.2 fun argument _ heq => ?_
  have htext := congrArg String.toList heq
  rw [Expression.localName, String.toList_append] at htext
  cases htext

/-- The outline of a call is arranged. -/
theorem arranged_callOutline (named : List NamedArgument) (logger : Option (List Token)) (call : CompiledCall)
    (delivery : Delivery) :
    Arranged named logger call delivery (callOutline call logger named delivery) := by
  have hlocals := ne_await_of_mem_taken named
  have hvalues : (taken named).map (·.2) = named.map (·.value) := by
    simp [taken]
  refine ⟨?_, enclosed_outline _ _ _ _ _ _, ⟨_, _, rfl, parts_rendered _ _ _, ?_, isAwait_recorded hlocals _ _ _⟩,
    isAwait_outline hlocals _ _ _ _ _, isLiteral_outline hlocals _ _ _ _ _⟩
  · rw [callOutline, parts_outline, hvalues]
  · simp [parts_posted]

end Expansion

namespace Invocation

open Expansion

variable {invocation : Invocation} {template : Template}

/-- In an accepted call each placeholder supplies its argument. -/
theorem supplies_of_template (h : invocation.template = .ok template) (severity : Severity) :
    ∃ items, Template.Accepted invocation.named invocation.value.toList items ∧
      List.Forall₂ (Template.Supplies invocation.named) (Template.bodies items) (template.compile severity).arguments := by
  obtain ⟨items, haccepted, -, hreads⟩ := Template.read_eq_ok_iff_reads.1 (template_eq_ok_iff.1 h)
  have hbodies := Template.forall₂_bodies hreads
  rw [Template.map_value_locate, Template.filterMap_spread] at hbodies
  refine ⟨items, haccepted, ?_⟩
  rw [Template.compile_arguments]
  refine List.forall₂_map_right_iff.2 (hbodies.imp ?_)
  rintro body ⟨expression, modifier⟩ ⟨text, place, hsplits, hdenotes⟩
  exact Template.supplies_of_denotes hsplits hdenotes

/-- In an accepted call each local of an argument is supplied by a placeholder. -/
theorem exists_local_of_template (h : invocation.template = .ok template) (severity : Severity) {argument : NamedArgument}
    (hm : argument ∈ invocation.named) :
    ∃ expression ∈ (template.compile severity).arguments,
      expression.tokens = [.ident (Expression.localName argument.name)] := by
  obtain ⟨items, haccepted, hsupplies⟩ := supplies_of_template h severity
  obtain ⟨body, hbody, hnames⟩ := haccepted.used argument hm
  have hmem : body ∈ Template.bodies items := List.mem_filterMap.2 ⟨_, hbody, rfl⟩
  obtain ⟨expression, hexpression, hsupplied⟩ := exists_of_forall₂ hsupplies hmem
  exact ⟨expression, hexpression, hsupplied.tokens_of_names hm hnames⟩

/-- The code of an accepted call is arranged around the parts of the user, which come from the call in this way: there is one
argument for each placeholder, in order, and as many as the format has markers; a placeholder that names an argument supplies
its local, and each local is supplied by some placeholder; and the format that is rendered is the one that was compiled. -/
theorem expand_arranged (h : invocation.template = .ok template) (severity : Severity) (delivery : Delivery) :
    expand (template.compile severity) invocation.logger invocation.named delivery =
        fillAll id (callOutline (template.compile severity) invocation.logger invocation.named delivery) ∧
      Arranged invocation.named invocation.logger (template.compile severity) delivery
        (callOutline (template.compile severity) invocation.logger invocation.named delivery) ∧
      (∃ items, Template.Decomposes invocation.value.toList items ∧
        List.Forall₂ (Template.Supplies invocation.named) (Template.bodies items) (template.compile severity).arguments) ∧
      (∀ argument ∈ invocation.named, ∃ expression ∈ (template.compile severity).arguments,
        expression.tokens = [.ident (Expression.localName argument.name)]) ∧
      (∃ pieces, Format.parse (template.compile severity).format = .ok pieces ∧
        Format.markerCount pieces = (template.compile severity).arguments.length) ∧
      ∃ text, formatLiteral (template.compile severity).format = [.literal text] ∧
        StringLiteral.value? text = some (template.compile severity).format := by
  refine ⟨expand_eq_fillAll _ _ _ _, arranged_callOutline _ _ _ _, ?_, fun _ hm => exists_local_of_template h severity hm,
    ⟨_, Template.parse_format_compile template severity, ?_⟩, ⟨_, rfl, StringLiteral.value?_literal _⟩⟩
  · obtain ⟨items, haccepted, hsupplies⟩ := supplies_of_template h severity
    exact ⟨items, haccepted.decomposes, hsupplies⟩
  · rw [Template.markerCount_normalForm, Template.compile_arguments, List.length_map]
    rfl

/-- Tokens as an expression of their own. -/
def bare (tokens : List Token) : Expression :=
  ⟨tokens, "", ⟨0, 0⟩⟩

/-- A call is accepted if its logger, its values and what its placeholders are compiled to are these words. -/
theorem exists_of_supplied (source logger : String) (values words : List String)
    (h : (fun invocation => (invocation.logger.toList.map fun tokens => (bare tokens).word?,
      invocation.named.map fun argument => (bare argument.value).word?,
      (fun template => (template.compile .info).arguments.map Expression.word?) <$> invocation.template)) <$> ofSource source =
      .ok ([some logger], values.map some, .ok (words.map some))) :
    ∃ invocation template, ofSource source = .ok invocation ∧ invocation.template = .ok template ∧
      invocation.logger.toList = [[.ident logger]] ∧
      invocation.named.map (·.value) = (values.map fun word => [.ident word]) ∧
      (template.compile .info).arguments.map (·.tokens) = words.map fun word => [.ident word] := by
  obtain ⟨invocation, hs, heq⟩ := Outcome.map_eq_ok_iff.1 h
  obtain ⟨hlogger, heq⟩ := Prod.mk.inj heq
  obtain ⟨hvalues, htemplate⟩ := Prod.mk.inj heq
  obtain ⟨template, ht, hwords⟩ := Outcome.map_eq_ok_iff.1 htemplate
  have hloggerTokens : (invocation.logger.toList.map bare).map (·.tokens) = [logger].map fun word => [.ident word] :=
    Expression.map_tokens_of_word? (by simpa [Function.comp_def] using hlogger)
  have hvaluesTokens : (invocation.named.map fun argument => bare argument.value).map (·.tokens) =
      values.map fun word => [.ident word] :=
    Expression.map_tokens_of_word? (by simpa [Function.comp_def] using hvalues)
  refine ⟨invocation, template, hs, ht, ?_, ?_, Expression.map_tokens_of_word? hwords⟩
  · simpa [bare, Function.comp_def] using hloggerTokens
  · simpa [bare, Function.comp_def] using hvaluesTokens

/-- Two arguments, used in another order than they are given in and one of them twice, beside an expression and a logger that is
waited for. -/
theorem expand_arranged_shared :
    ∃ invocation template code,
      ofSource "out, \"\x7bb\x7d \x7ba\x7d \x7bpublic: b\x7d \x7bx\x7d\", a = p, b = q" = .ok invocation ∧
        invocation.template = .ok template ∧
        expand (template.compile .info) invocation.logger invocation.named .awaited = fillAll id code ∧
        parts code = [[.ident "p"], [.ident "q"], [.ident "__loggable_b"], [.ident "__loggable_a"], [.ident "__loggable_b"],
          [.ident "x"], [.ident "out"]] ∧
        Enclosed code ∧ selected isAwait code = [.ident "await"] := by
  obtain ⟨invocation, template, hs, ht, hlogger, hvalues, hwords⟩ :=
    exists_of_supplied "out, \"\x7bb\x7d \x7ba\x7d \x7bpublic: b\x7d \x7bx\x7d\", a = p, b = q" "out" ["p", "q"]
      ["__loggable_b", "__loggable_a", "__loggable_b", "x"] (by decide +kernel)
  obtain ⟨hexpand, harranged, -⟩ := expand_arranged ht .info .awaited
  refine ⟨invocation, template, _, hs, ht, hexpand, ?_, harranged.enclosed, harranged.waits⟩
  rw [harranged.order, hvalues, hwords, hlogger]
  rfl

end Invocation

end PrivateLog
