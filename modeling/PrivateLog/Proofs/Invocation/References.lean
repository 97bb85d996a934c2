import PrivateLog.CompiledCall
import PrivateLog.Proofs.Expression.Identifier
import PrivateLog.Proofs.Invocation.Locals
import PrivateLog.Proofs.Token.Identifier

/-!
# What the name of an argument refers to

A placeholder whose expression is a single identifier, the name of an argument, refers to that argument exactly if there are
only blanks around the name (`compile_refers`). With anything else around it, such as a comment, the same identifier is read
as an expression, and stays the identifier that it is (`argument_not_bound`).
-/

namespace PrivateLog

open Text

/-! ## Texts that are a name -/

/-- There are only blanks around the name in the text. -/
def OnlyBlanksAround (name : String) (text : List Char) : Prop :=
  ∃ before behind, text = before ++ (name.toList ++ behind) ∧ (∀ c ∈ before, isBlank c = true) ∧
    ∀ c ∈ behind, isBlank c = true

/-- What is left of a text without the blanks at its ends is a name exactly if there are only blanks around the name. -/
theorem trim_eq_iff {name : String} (hname : ∀ c ∈ name.toList, isBlank c = false) {text : List Char} :
    trim text = name.toList ↔ OnlyBlanksAround name text := by
  constructor
  · intro h
    obtain ⟨blanks, hblanks, htext⟩ := exists_trim_append text
    rw [h] at htext
    exact ⟨_, blanks, htext, List.all_eq_true.1 List.all_takeWhile, hblanks⟩
  · rintro ⟨before, behind, rfl, hbefore, hbehind⟩
    exact trim_append_append hbefore hbehind hname

namespace Template

/-- The bodies of the placeholders among some items. -/
def bodies (items : List Item) : List (List Char) :=
  items.filterMap fun
    | .placeholder body => some body
    | _ => none

/-- What the body of a placeholder is compiled to, if its text is one identifier that is the name of an argument: the local of
that argument exactly if there are only blanks around the name, and else the identifier. -/
def Refers (named : List NamedArgument) (body : List Char) (expression : Expression) : Prop :=
  ∀ modifier text argument, Splits body modifier text → argument ∈ named →
    Token.read? (trim text) = some [.ident argument.name] →
    (expression = Expression.binding argument.name argument.place ↔ OnlyBlanksAround argument.name text) ∧
      (expression.tokens = [.ident argument.name] ↔ ¬OnlyBlanksAround argument.name text)

/-- A text that stands for an expression refers as its tokens say. -/
theorem refers_of_denotes {named : List NamedArgument} (hd : (named.map (·.name)).Nodup)
    (hnames : ∀ argument ∈ named, ∃ text rest, Lexeme.splitIdentifier text = some (argument.name, rest)) {body text : List Char}
    {modifier : Option Modifier} {place : Span} {expression : Expression} (hs : Splits body modifier text)
    (h : Denotes named text place expression) : Refers named body expression := by
  intro modifier' text' argument hs' hm hread
  obtain ⟨-, rfl⟩ := hs.unique hs'
  obtain ⟨front, rest, hidentifier⟩ := hnames argument hm
  have hlocal := Expression.localName_ne argument.name
  rw [← trim_eq_iff (Lexeme.not_isBlank_of_splitIdentifier hidentifier)]
  cases h with
  | @argument other hother hname =>
    -- The text is the name of some argument, and it is read as the name of this one: they are the same.
    obtain ⟨front', rest', hidentifier'⟩ := hnames other hother
    have htrim : trim text = other.name.toList := by
      rw [hname, String.toList_ofList]
    rw [htrim, Token.read?_of_splitIdentifier hidentifier'] at hread
    have hsame : other.name = argument.name := by
      simpa using hread
    obtain rfl := List.inj_on_of_nodup_map hd hother hm hsame
    simp [htrim, Expression.binding, hlocal]
  | expression hnone hparse =>
    have hreadTrim : Token.read? (trim (String.ofList (trim text)).toList) = some [.ident argument.name] := by
      rw [String.toList_ofList, trim_trim]
      exact hread
    have htokens := Expression.tokens_of_parse hreadTrim hparse
    have hne : trim text ≠ argument.name.toList := by
      intro htrim
      exact hnone argument hm (by rw [htrim, String.ofList_toList])
    refine ⟨⟨fun heq => ?_, fun htrim => absurd htrim hne⟩, ⟨fun _ => hne, fun _ => htokens⟩⟩
    rw [heq] at htokens
    exact absurd (by simpa [Expression.binding] using htokens) hlocal

/-! ## Placeholders and arguments -/

/-- The placeholders are the parts that are no text. -/
theorem filterMap_spread (segments : List Segment) :
    (Runs.spread (segments.map segmentPart)).filterMap Sum.getRight? = (Template.mk segments).placeholders := by
  induction segments with
  | nil => rfl
  | cons segment segments ih =>
    cases segment with
    | literal text =>
      have hnone : (text.toList.map Sum.inl).filterMap Sum.getRight? = ([] : List (Expression × Option Modifier)) := by
        simp [List.filterMap_eq_nil_iff]
      rw [List.map_cons, segmentPart, Runs.spread, List.filterMap_append, hnone, ih]
      rfl
    | placeholder expression modifier =>
      have hparts : Runs.spread ((.placeholder expression modifier :: segments).map segmentPart) =
          .inr (expression, modifier) :: Runs.spread (segments.map segmentPart) := rfl
      rw [hparts, List.filterMap_cons, ih]
      rfl

/-- The placeholders that items stand for are those of their bodies, one by one. -/
theorem forall₂_bodies {named : List NamedArgument} {place : Span → Span} {items : List (Located Item)}
    {parts : List (Char ⊕ (Expression × Option Modifier))} (h : List.Forall₂ (ReadsItem named place) items parts) :
    List.Forall₂ (fun body part => ∃ text place, Splits body part.2 text ∧ Denotes named text place part.1)
      (bodies (items.map (·.value))) (parts.filterMap Sum.getRight?) := by
  induction h with
  | nil => exact .nil
  | cons hitem _ ih =>
    cases hitem with
    | placeholder hs hdenotes => exact .cons ⟨_, _, hs, hdenotes⟩ ih
    | _ => exact ih

end Template

namespace Invocation

/-- In an accepted call every placeholder whose text is one identifier that names an argument refers to that argument exactly
if there are only blanks around the name, and else is that identifier. -/
theorem compile_refers {source : String} {invocation : Invocation} {template : Template}
    (hs : ofSource source = .ok invocation) (ht : invocation.template = .ok template) (severity : Severity) :
    ∃ items, Template.Decomposes invocation.value.toList items ∧
      List.Forall₂ (Template.Refers invocation.named) (Template.bodies items) (template.compile severity).arguments := by
  obtain ⟨tokens, hlocate, hparts⟩ := exists_tokens_of_ofSource hs
  have hstands := Token.standsIn_of_locate? hlocate
  have hnames : ∀ argument ∈ invocation.named, ∃ text rest,
      Lexeme.splitIdentifier text = some (argument.name, rest) :=
    fun argument hm => (hstands _ (hparts.names argument hm)).exists_splitIdentifier
  obtain ⟨items, haccepted, -, hreads⟩ := Template.read_eq_ok_iff_reads.1 (template_eq_ok_iff.1 ht)
  have hbodies := Template.forall₂_bodies hreads
  rw [Template.map_value_locate, Template.filterMap_spread] at hbodies
  refine ⟨items, haccepted.decomposes, ?_⟩
  rw [Template.compile_arguments]
  refine List.forall₂_map_right_iff.2 (hbodies.imp ?_)
  rintro body ⟨expression, modifier⟩ ⟨text, place, hsplits, hdenotes⟩
  exact Template.refers_of_denotes haccepted.distinct hnames hsplits hdenotes

/-- A call is accepted if its arguments have these names and its placeholders are compiled to these words. -/
theorem exists_of_words (source value : String) (names words : List String)
    (h : (fun invocation => (invocation.value, invocation.named.map (·.name),
      (fun template => (template.compile .info).arguments.map Expression.word?) <$> invocation.template)) <$> ofSource source =
      .ok (value, names, .ok (words.map some))) :
    ∃ invocation template, ofSource source = .ok invocation ∧ invocation.template = .ok template ∧
      invocation.value = value ∧ invocation.named.map (·.name) = names ∧
      (template.compile .info).arguments.map (·.tokens) = words.map fun word => [.ident word] := by
  obtain ⟨invocation, hs, heq⟩ := Outcome.map_eq_ok_iff.1 h
  obtain ⟨hvalue, heq⟩ := Prod.mk.inj heq
  obtain ⟨hnames, htemplate⟩ := Prod.mk.inj heq
  obtain ⟨template, ht, hwords⟩ := Outcome.map_eq_ok_iff.1 htemplate
  exact ⟨invocation, template, hs, ht, hvalue, hnames, Expression.map_tokens_of_word? hwords⟩

/-- A name between blanks, and one behind a label and a comment. -/
theorem compile_refers_comment :
    ∃ invocation template first second,
      ofSource "\"\x7b n \x7d\x7bpublic:/*c*/ n\x7d\", n = 1" = .ok invocation ∧ invocation.template = .ok template ∧
        (template.compile .info).arguments = [first, second] ∧
        Template.Refers invocation.named " n ".toList first ∧
        Template.Refers invocation.named "public:/*c*/ n".toList second := by
  obtain ⟨invocation, template, hs, ht, hvalue, -⟩ :=
    exists_of_words "\"\x7b n \x7d\x7bpublic:/*c*/ n\x7d\", n = 1" "\x7b n \x7d\x7bpublic:/*c*/ n\x7d" ["n"]
      ["__loggable_n", "n"] (by decide +kernel)
  have hfirst : Template.splitBody 0 " n \x7d".toList = some (" n ".toList, []) := by decide
  have hsecond : Template.splitBody 0 "public:/*c*/ n\x7d".toList = some ("public:/*c*/ n".toList, []) := by decide
  have hitems : Template.Decomposes invocation.value.toList
      [.placeholder " n ".toList, .placeholder "public:/*c*/ n".toList] := by
    rw [hvalue]
    refine ⟨?_, by decide⟩
    simp only [List.forall_mem_cons]
    exact ⟨⟨Template.balanced_iff_closes.2 (Template.splitBody_eq_some_iff.1 hfirst).2, by decide⟩,
      ⟨Template.balanced_iff_closes.2 (Template.splitBody_eq_some_iff.1 hsecond).2, by decide⟩,
      fun item hm => absurd hm List.not_mem_nil⟩
  obtain ⟨items, hdecomposes, hrefers⟩ := compile_refers hs ht .info
  obtain rfl := hdecomposes.unique hitems
  generalize harguments : (template.compile .info).arguments = arguments at hrefers
  cases hrefers with
  | @cons _ first _ _ hfirst hrest =>
    cases hrest with
    | @cons _ second _ _ hsecond hrest =>
      cases hrest
      exact ⟨invocation, template, first, second, hs, ht, harguments, hfirst, hsecond⟩

/-- Behind a comment the name of an argument is one identifier too, but it stays that identifier, and does not refer to the
argument. -/
theorem argument_not_bound :
    Token.read? "/*c*/ n".toList = some [.ident "n"] ∧
      ∃ invocation template, ofSource "\"\x7bn\x7d \x7b/*c*/ n\x7d\", n = 1" = .ok invocation ∧
        invocation.template = .ok template ∧ invocation.value = "\x7bn\x7d \x7b/*c*/ n\x7d" ∧
        invocation.named.map (·.name) = ["n"] ∧
        (template.compile .info).arguments.map (·.tokens) = [[.ident (Expression.localName "n")], [.ident "n"]] ∧
        Expression.localName "n" ≠ "n" := by
  refine ⟨Expression.read?_of_nameOfText? (by decide +kernel), ?_⟩
  obtain ⟨invocation, template, hs, ht, hvalue, hnames, htokens⟩ :=
    exists_of_words "\"\x7bn\x7d \x7b/*c*/ n\x7d\", n = 1" "\x7bn\x7d \x7b/*c*/ n\x7d" ["n"] ["__loggable_n", "n"]
      (by decide +kernel)
  exact ⟨invocation, template, hs, ht, hvalue, hnames, htokens, by decide⟩

end Invocation

end PrivateLog
