import PrivateLog.Proofs.Runs
import PrivateLog.Template.Reader
import Mathlib.Data.List.Forall2

/-!
# The grammar of templates

What a template literal may look like, said without the reader. Its value is a row of items (`Decomposes`): doubled braces,
characters that are no braces, and placeholders in braces. A placeholder may begin with a label, and what is left names an
argument or is an expression (`Acceptable`). Together with the rules for the names of the arguments this is `Accepted`.
`Reads` says which template such a row of items stands for.
-/

namespace PrivateLog.Template

open Text

/-- No prefix of the text closes more braces than it opens, and all that are opened are closed. -/
def Balanced (text : List Char) : Prop :=
  (∀ front, front <+: text → front.count '}' ≤ front.count '{') ∧ text.count '}' = text.count '{'

/-- An item of a template's value. -/
inductive Item where
  | opening
  | closing
  | character (c : Char)
  | placeholder (body : List Char)
  deriving DecidableEq, Repr

namespace Item

/-- The characters of an item. -/
def spelling : Item → List Char
  | .opening => ['{', '{']
  | .closing => ['}', '}']
  | .character c => [c]
  | .placeholder body => '{' :: (body ++ ['}'])

/-- A single character is no brace, and a body is balanced and does not begin with an opening brace. -/
def IsValid : Item → Prop
  | .opening => True
  | .closing => True
  | .character c => c ≠ '{' ∧ c ≠ '}'
  | .placeholder body => Balanced body ∧ body.head? ≠ some '{'

end Item

/-- The value is the row of these items. -/
def Decomposes (value : List Char) (items : List Item) : Prop :=
  (∀ item ∈ items, item.IsValid) ∧ items.flatMap Item.spelling = value

/-- Items with the number of bytes in front of each and up to its end, `offset` bytes being in front of them all. -/
def locate (offset : Nat) : List Item → List (Located Item)
  | [] => []
  | item :: items =>
    let stop := offset + byteLength item.spelling
    ⟨item, ⟨offset, stop⟩⟩ :: locate stop items

/-- A text that begins with no item: with an opening brace that nothing closes, or with a single closing brace. `part` is what
is wrong: all of the text, or the brace alone. -/
inductive Broken : List Char → Piece → (part : List Char) → Prop where
  | unterminated {text : List Char} : text.head? ≠ some '{' → (∀ body rest, text = body ++ '}' :: rest → ¬Balanced body) →
      Broken ('{' :: text) .unterminated ('{' :: text)
  | unmatched {text : List Char} : text.head? ≠ some '}' → Broken ('}' :: text) .unmatched ['}']

/-! ## Bodies of placeholders -/

/-- The body begins with a label: a word, blanks around it, and a single colon. `rest` is the text behind the colon. -/
def Labelled (body label rest : List Char) : Prop :=
  ∃ before, body = before ++ ':' :: rest ∧ trim before = label ∧ isLabel label = true ∧ rest.head? ≠ some ':'

/-- The modifier and the text of a body: no label and all of the body, or the public label and what is behind it. A body
with another label has neither. -/
inductive Splits (body : List Char) : Option Modifier → List Char → Prop where
  | bare : (∀ label rest, ¬Labelled body label rest) → Splits body none body
  | shown {rest : List Char} : Labelled body "public".toList rest → Splits body (some .shown) rest

/-- The body names this: its text without the blanks around it. -/
def Names (body : List Char) (name : String) : Prop :=
  ∃ modifier text, Splits body modifier text ∧ String.ofList (trim text) = name

/-- The body names an argument, or something that is read as an expression. -/
def Acceptable (named : List NamedArgument) (body : List Char) : Prop :=
  ∃ name, Names body name ∧
    ((∃ argument ∈ named, argument.name = name) ∨ ∃ place expression, Expression.parse name place = .ok expression)

/-- The value of a template literal is in order: no two arguments have the same name, the value is the row of these items,
every body is acceptable, and every argument is named. -/
structure Accepted (named : List NamedArgument) (value : List Char) (items : List Item) : Prop where
  distinct : (named.map (·.name)).Nodup
  decomposes : Decomposes value items
  acceptable : ∀ body, .placeholder body ∈ items → Acceptable named body
  used : ∀ argument ∈ named, ∃ body, .placeholder body ∈ items ∧ Names body argument.name

/-! ## The template that items stand for -/

/-- The text stands for an expression: for the argument that it names, or else for what it is read as. -/
inductive Denotes (named : List NamedArgument) (text : List Char) (place : Span) : Expression → Prop where
  | argument {argument : NamedArgument} : argument ∈ named → argument.name = String.ofList (trim text) →
      Denotes named text place (Expression.binding argument.name argument.place)
  | expression {expression : Expression} : (∀ argument ∈ named, argument.name ≠ String.ofList (trim text)) →
      Expression.parse (String.ofList (trim text)) place = .ok expression → Denotes named text place expression

/-- An item stands for a character, or for an expression with its modifier; `place` tells where a part of the value stands
in the source. -/
inductive ReadsItem (named : List NamedArgument) (place : Span → Span) :
    Located Item → Char ⊕ (Expression × Option Modifier) → Prop where
  | opening (span : Span) : ReadsItem named place ⟨.opening, span⟩ (.inl '{')
  | closing (span : Span) : ReadsItem named place ⟨.closing, span⟩ (.inl '}')
  | character (c : Char) (span : Span) : ReadsItem named place ⟨.character c, span⟩ (.inl c)
  | placeholder {body text : List Char} {span : Span} {modifier : Option Modifier} {expression : Expression} :
      Splits body modifier text → Denotes named text (place span) expression →
      ReadsItem named place ⟨.placeholder body, span⟩ (.inr (expression, modifier))

/-- A part of a template as a text, or as an expression with its modifier. -/
def segmentPart : Segment → String ⊕ (Expression × Option Modifier)
  | .literal text => .inl text
  | .placeholder expression modifier => .inr (expression, modifier)

/-- The template has a placeholder for each body, in order, and between them the longest runs of characters as texts. -/
def Reads (named : List NamedArgument) (place : Span → Span) (items : List Item) (template : Template) : Prop :=
  Runs.Merged (template.segments.map segmentPart) ∧
    List.Forall₂ (ReadsItem named place) (locate 0 items) (Runs.spread (template.segments.map segmentPart))

end PrivateLog.Template
