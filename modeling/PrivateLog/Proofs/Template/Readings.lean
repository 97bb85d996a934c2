import PrivateLog.Proofs.Template.Acceptance
import PrivateLog.Proofs.Template.Faults
import PrivateLog.Proofs.Template.Unlabelled

/-!
# The reading of a body

A body could be read in two ways: as an expression from end to end, and as a label with an expression behind it (`Reading`).
Both never apply to one body, since a body in which a label is found is refused as an expression
(`parse_eq_invalidExpression_of_labelled`). So a body has one reading at most (`Reading.unique`), and it is the one that
`readBody` finds (`reading_of_body`): looking for a label first takes no expression away.
-/

namespace PrivateLog.Template

open Text

variable {body : List Char} {place : Span}

/-- A reading of a body: it is an expression as it stands, or it begins with the label of a modifier and is an expression
behind that. Nothing is said about which of the two comes first. -/
inductive Reading (body : List Char) (place : Span) : Option Modifier → Expression → Prop where
  | whole {expression : Expression} : Expression.parse (String.ofList body) place = .ok expression →
      Reading body place none expression
  | behind {modifier : Modifier} {rest : List Char} {expression : Expression} :
      Labelled body modifier.label.toList rest → Expression.parse (String.ofList rest) place = .ok expression →
      Reading body place (some modifier) expression

/-- A body has a label exactly if one is found in it. -/
theorem exists_labelled_iff : (∃ label rest, Labelled body label rest) ↔ Body.read body ≠ .unlabelled := by
  constructor
  · rintro ⟨label, rest, h⟩ hread
    rcases read_of_labelled h with ⟨-, hlabelled⟩ | ⟨-, hunknown⟩
    · rw [hread] at hlabelled
      cases hlabelled
    · rw [hread] at hunknown
      cases hunknown
  · intro hread
    by_contra hnone
    exact hread (read_of_not_labelled fun label rest h => hnone ⟨label, rest, h⟩)

/-- In an expression no label is found. -/
theorem read_of_parse {expression : Expression} (h : Expression.parse (String.ofList body) place = .ok expression) :
    Body.read body = .unlabelled :=
  read_of_not_labelled (not_labelled_of_parse h)

/-- A body with a label is refused as an expression. -/
theorem parse_eq_invalidExpression_of_labelled {label rest : List Char} (h : Labelled body label rest) (place : Span) :
    Expression.parse (String.ofList body) place = .error (.invalidExpression (String.ofList (trim body))) := by
  have hcolon : ∃ c ∈ body, isBlank c = false := by
    obtain ⟨before, rfl, -⟩ := h
    exact ⟨':', by simp, by decide⟩
  have hrefused : ∀ place expression, Expression.parse (String.ofList (trim body)) place ≠ .ok expression := by
    intro place expression hparse
    rw [parse_ofList_trim] at hparse
    exact not_labelled_of_parse hparse label rest h
  exact @resolve_eq_invalidExpression [] body hcolon (fun _ hm => absurd hm List.not_mem_nil) hrefused place

/-- A body has one reading at most. -/
theorem Reading.unique {modifier modifier' : Option Modifier} {expression expression' : Expression}
    (h : Reading body place modifier expression) (h' : Reading body place modifier' expression') :
    modifier = modifier' ∧ expression = expression' := by
  cases h with
  | whole hparse =>
    cases h' with
    | whole hparse' =>
      rw [hparse] at hparse'
      cases hparse'
      exact ⟨rfl, rfl⟩
    | behind hlabelled' => exact absurd hlabelled' (not_labelled_of_parse hparse _ _)
  | @behind modifier _ _ hlabelled hparse =>
    cases h' with
    | whole hparse' => exact absurd hlabelled (not_labelled_of_parse hparse' _ _)
    | @behind modifier' _ _ hlabelled' hparse' =>
      obtain ⟨hlabel, rfl⟩ := hlabelled.unique hlabelled'
      have hmodifier : some modifier = some modifier' := calc
        some modifier = Modifier.ofLabel? modifier.label := (Modifier.ofLabel?_label modifier).symm
        _ = Modifier.ofLabel? modifier'.label := congrArg Modifier.ofLabel? (String.toList_inj.1 hlabel)
        _ = some modifier' := Modifier.ofLabel?_label modifier'
      rw [hparse] at hparse'
      cases hparse'
      exact ⟨hmodifier, rfl⟩

/-- A body splits into the text that is read, and into the modifier of its reading. -/
theorem reading_iff_splits {modifier : Option Modifier} {expression : Expression} :
    Reading body place modifier expression ↔
      ∃ text, Splits body modifier text ∧ Expression.parse (String.ofList text) place = .ok expression := by
  constructor
  · intro h
    cases h with
    | whole hparse => exact ⟨body, .bare (not_labelled_of_parse hparse), hparse⟩
    | @behind modifier rest _ hlabelled hparse =>
      cases modifier
      exact ⟨rest, .shown hlabelled, hparse⟩
  · rintro ⟨text, hsplits, hparse⟩
    cases hsplits with
    | bare => exact .whole hparse
    | shown hlabelled => exact @Reading.behind _ _ .shown _ _ hlabelled hparse

/-- Labels take no expression away. A body in which the label of a modifier is found, or an unknown one, is refused as an
expression; a body that is an expression is read from end to end, whatever arguments there are; a body has one reading at most;
and this is what it is read as. -/
theorem reading_of_body (body : List Char) (place : Span) :
    (∀ modifier rest, Body.read body = .labelled modifier rest →
        Expression.parse (String.ofList body) place = .error (.invalidExpression (String.ofList (trim body)))) ∧
      (∀ indent label, Body.read body = .unknown indent label →
        Expression.parse (String.ofList body) place = .error (.invalidExpression (String.ofList (trim body)))) ∧
      (∀ expression, Expression.parse (String.ofList body) place = .ok expression →
        ∀ named within span, readBody named within body span = readText named none body (within span)) ∧
      (∀ modifier modifier' expression expression', Reading body place modifier expression →
        Reading body place modifier' expression' → modifier = modifier' ∧ expression = expression') ∧
      ∀ within span placeholder, readBody [] within body span = .ok placeholder ↔
        Reading body (within span) placeholder.modifier placeholder.expression ∧ placeholder.uses = none := by
  have hrefused : Body.read body ≠ .unlabelled →
      Expression.parse (String.ofList body) place = .error (.invalidExpression (String.ofList (trim body))) := by
    intro hread
    obtain ⟨label, rest, hlabelled⟩ := exists_labelled_iff.2 hread
    exact parse_eq_invalidExpression_of_labelled hlabelled place
  refine ⟨?_, ?_, ?_, fun _ _ _ _ h h' => h.unique h', ?_⟩
  · intro modifier rest hread
    exact hrefused (by simp [hread])
  · intro indent label hread
    exact hrefused (by simp [hread])
  · intro expression hparse named within span
    rw [readBody, read_of_parse hparse]
  · intro within span placeholder
    rw [readBody_eq_ok_iff, reading_iff_splits]
    constructor
    · rintro ⟨text, hsplits, hparse, huses⟩
      exact ⟨⟨text, hsplits, hparse⟩, huses⟩
    · rintro ⟨⟨text, hsplits, hparse⟩, huses⟩
      exact ⟨text, hsplits, hparse, huses⟩

/-- A known label and an unknown one, and an expression with a path and a colon that is read from end to end. -/
theorem reading_of_body_colons :
    Expression.parse "public: a::b" ⟨0, 0⟩ = .error (.invalidExpression "public: a::b") ∧
      Expression.parse " x : T" ⟨0, 0⟩ = .error (.invalidExpression "x : T") ∧
      ∃ expression, Expression.parse "f::<T>(S \x7b a: b::c \x7d)" ⟨0, 0⟩ = .ok expression ∧
        readBody [] id "f::<T>(S \x7b a: b::c \x7d)".toList ⟨0, 0⟩ = .ok ⟨expression, none, none⟩ := by
  refine ⟨?_, ?_, ?_⟩
  · have hread : Body.read "public: a::b".toList = .labelled .shown " a::b".toList := by decide
    have htrim : trim "public: a::b".toList = "public: a::b".toList := by decide
    have hparse := (reading_of_body "public: a::b".toList ⟨0, 0⟩).1 _ _ hread
    rwa [htrim, String.ofList_toList] at hparse
  · have hread : Body.read " x : T".toList = .unknown [' '] ['x'] := by decide
    have htrim : trim " x : T".toList = "x : T".toList := by decide
    have hparse := (reading_of_body " x : T".toList ⟨0, 0⟩).2.1 _ _ hread
    rwa [htrim, String.ofList_toList, String.ofList_toList] at hparse
  · have hok : (Expression.parse "f::<T>(S \x7b a: b::c \x7d)" ⟨0, 0⟩).isOk = true := by decide +kernel
    cases hparse : Expression.parse "f::<T>(S \x7b a: b::c \x7d)" ⟨0, 0⟩ with
    | error fault =>
      rw [hparse] at hok
      cases hok
    | ok expression =>
      rw [← String.ofList_toList (s := "f::<T>(S \x7b a: b::c \x7d)")] at hparse
      have hread := (reading_of_body "f::<T>(S \x7b a: b::c \x7d)".toList ⟨0, 0⟩).2.2.1 expression hparse [] id ⟨0, 0⟩
      have hresolve : resolve [] "f::<T>(S \x7b a: b::c \x7d)".toList ⟨0, 0⟩ = .ok expression := hparse
      refine ⟨expression, rfl, hread.trans ?_⟩
      rw [readText, id, hresolve]
      rfl

end PrivateLog.Template
