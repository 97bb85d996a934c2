import PrivateLog.Proofs.Template.Grammar
import Mathlib.Data.List.Nodup

/-!
# Labels and what is behind them

The label of a body ends at its first colon, since neither a word nor the blanks around it hold one
(`colon_not_mem_of_isLabel`). So there is at most one label, the one that `Body.read` finds (`read_of_labelled`,
`read_of_not_labelled`), and a body splits in at most one way (`splits_iff`, `Splits.unique`). What the text of a body stands
for is what it is resolved to, as long as no two arguments share a name (`resolve_eq_ok_iff`).
-/

namespace PrivateLog.Template

open Text

/-! ## The first colon -/

/-- A text is split at its first colon. -/
theorem splitColon_eq_some_iff {text before behind : List Char} :
    splitColon text = some (before, behind) ↔ text = before ++ ':' :: behind ∧ ':' ∉ before := by
  induction text generalizing before with
  | nil => simp [splitColon]
  | cons c text ih =>
    rw [splitColon]
    by_cases hc : c = ':'
    · subst hc
      rw [if_pos rfl]
      constructor
      · intro h
        cases h
        exact ⟨rfl, List.not_mem_nil⟩
      · rintro ⟨h, hmem⟩
        cases before with
        | nil =>
          cases h
          rfl
        | cons d before =>
          rw [List.cons_append, List.cons.injEq] at h
          exact absurd (h.1 ▸ List.mem_cons_self) hmem
    · rw [if_neg hc]
      constructor
      · intro h
        obtain ⟨⟨front, rest⟩, hs, hf⟩ := Option.map_eq_some_iff.1 h
        cases hf
        obtain ⟨rfl, hmem⟩ := ih.1 hs
        exact ⟨rfl, fun hm => (List.mem_cons.1 hm).elim (fun he => hc he.symm) hmem⟩
      · rintro ⟨h, hmem⟩
        cases before with
        | nil =>
          cases h
          exact absurd rfl hc
        | cons d before =>
          rw [List.cons_append, List.cons.injEq] at h
          obtain ⟨rfl, rfl⟩ := h
          have hs := ih.2 ⟨rfl, fun hm => hmem (List.mem_cons_of_mem c hm)⟩
          exact Option.map_eq_some_iff.2 ⟨_, hs, rfl⟩

/-- A word holds no colon. -/
theorem colon_not_mem_of_isLabel {label : List Char} (h : isLabel label = true) : ':' ∉ label := by
  have hfirst : isAlphabetic ':' = false := by decide
  have hlater : isAlphanumeric ':' = false := by decide
  cases label with
  | nil => exact List.not_mem_nil
  | cons c label =>
    rw [isLabel, Bool.and_eq_true, List.all_eq_true] at h
    intro hm
    rcases List.mem_cons.1 hm with rfl | hm
    · simp [hfirst] at h
    · have := h.2 ':' hm
      simp [hlater] at this

/-- Nor do the blanks around it. -/
theorem colon_not_mem_of_isLabel_trim {before : List Char} (h : isLabel (trim before) = true) : ':' ∉ before := by
  intro hm
  rcases isBlank_or_mem_trim hm with hb | hm
  · revert hb
    decide
  · exact colon_not_mem_of_isLabel h hm

/-! ## Reading a body -/

/-- A label ends at the first colon. -/
theorem labelled_iff {body label rest : List Char} :
    Labelled body label rest ↔
      ∃ before, splitColon body = some (before, rest) ∧ trim before = label ∧ isLabel label = true ∧
        rest.head? ≠ some ':' := by
  constructor
  · rintro ⟨before, hbody, rfl, hlabel, hrest⟩
    exact ⟨before, splitColon_eq_some_iff.2 ⟨hbody, colon_not_mem_of_isLabel_trim hlabel⟩, rfl, hlabel, hrest⟩
  · rintro ⟨before, hs, hlabel⟩
    exact ⟨before, (splitColon_eq_some_iff.1 hs).1, hlabel⟩

/-- A body has one label at most. -/
theorem Labelled.unique {body label label' rest rest' : List Char} (h : Labelled body label rest)
    (h' : Labelled body label' rest') : label = label' ∧ rest = rest' := by
  obtain ⟨before, hs, rfl, -⟩ := labelled_iff.1 h
  obtain ⟨before', hs', rfl, -⟩ := labelled_iff.1 h'
  rw [hs] at hs'
  cases hs'
  exact ⟨rfl, rfl⟩

/-- Blanks in front of a label are the same in all of the body, since the label begins with none. -/
theorem takeWhile_append_of_isLabel {before : List Char} (h : isLabel (trim before) = true) (behind : List Char) :
    (before ++ behind).takeWhile isBlank = before.takeWhile isBlank := by
  obtain ⟨blanks, -, hbefore⟩ := exists_trim_append before
  cases htrim : trim before with
  | nil =>
    rw [htrim] at h
    cases h
  | cons c label =>
    have hstart : trimStart before = c :: (label ++ blanks) := by
      have happend : before.takeWhile isBlank ++ trimStart before = before := List.takeWhile_append_dropWhile
      rw [htrim] at hbefore
      exact List.append_cancel_left (happend.trans hbefore)
    have hc := isBlank_of_trimStart_eq_cons hstart
    have hall : ∀ d ∈ before.takeWhile isBlank, isBlank d = true := List.all_eq_true.1 List.all_takeWhile
    conv_lhs => rw [hbefore, htrim, List.append_assoc, List.takeWhile_append_of_pos hall]
    simp [hc]

/-- Behind the blanks that a body begins with stands its label. -/
theorem exists_append_of_labelled {body label rest : List Char} (h : Labelled body label rest) :
    ∃ after, body = body.takeWhile isBlank ++ (label ++ after) := by
  obtain ⟨before, rfl, rfl, hlabel, -⟩ := h
  obtain ⟨blanks, -, hbefore⟩ := exists_trim_append before
  refine ⟨blanks ++ ':' :: rest, ?_⟩
  rw [takeWhile_append_of_isLabel hlabel, ← List.append_assoc (trim before), ← List.append_assoc, ← hbefore]

/-- The label that a body begins with is found. -/
theorem read_of_labelled {body label rest : List Char} (h : Labelled body label rest) :
    (label = "public".toList ∧ Body.read body = .labelled .shown rest) ∨
      (label ≠ "public".toList ∧ Body.read body = .unknown (body.takeWhile isBlank) label) := by
  obtain ⟨before, hs, rfl, hlabel, hrest⟩ := labelled_iff.1 h
  have hcond : ¬(rest.head? = some ':' || !isLabel (trim before)) = true := by
    simp [hrest, hlabel]
  by_cases hp : trim before = "public".toList
  · refine Or.inl ⟨hp, ?_⟩
    simp only [Body.read, hs, if_neg hcond]
    rw [hp]
    rfl
  · refine Or.inr ⟨hp, ?_⟩
    have hne : String.ofList (trim before) ≠ "public" := by
      intro he
      rw [← he, String.toList_ofList] at hp
      exact hp rfl
    obtain rfl := (splitColon_eq_some_iff.1 hs).1
    simp only [Body.read, hs, if_neg hcond, Modifier.ofLabel?, if_neg hne, takeWhile_append_of_isLabel hlabel]

/-- A body without a label is left whole. -/
theorem read_of_not_labelled {body : List Char} (h : ∀ label rest, ¬Labelled body label rest) :
    Body.read body = .unlabelled := by
  cases hs : splitColon body with
  | none => simp only [Body.read, hs]
  | some found =>
    obtain ⟨before, behind⟩ := found
    have hcond : (behind.head? = some ':' || !isLabel (trim before)) = true := by
      by_cases hhead : behind.head? = some ':'
      · simp [hhead]
      · cases hlabel : isLabel (trim before) with
        | false => simp
        | true => exact absurd (labelled_iff.2 ⟨before, hs, rfl, hlabel, hhead⟩) (h _ _)
    simp only [Body.read, hs, hcond, if_true]

/-- A body splits as it is read. -/
theorem splits_iff {body text : List Char} {modifier : Option Modifier} :
    Splits body modifier text ↔
      (Body.read body = .unlabelled ∧ modifier = none ∧ text = body) ∨
        ∃ m, Body.read body = .labelled m text ∧ modifier = some m := by
  constructor
  · intro h
    cases h with
    | bare hnone => exact Or.inl ⟨read_of_not_labelled hnone, rfl, rfl⟩
    | shown h =>
      rcases read_of_labelled h with ⟨-, hr⟩ | ⟨hne, -⟩
      · exact Or.inr ⟨.shown, hr, rfl⟩
      · exact absurd rfl hne
  · intro h
    by_cases hl : ∃ label rest, Labelled body label rest
    · obtain ⟨label, rest, hl⟩ := hl
      rcases read_of_labelled hl with ⟨rfl, hr⟩ | ⟨-, hr⟩
      · rcases h with ⟨h, -⟩ | ⟨m, h, rfl⟩
        · rw [hr] at h
          cases h
        · rw [hr] at h
          cases h
          exact .shown hl
      · rcases h with ⟨h, -⟩ | ⟨m, h, -⟩
        · rw [hr] at h
          cases h
        · rw [hr] at h
          cases h
    · have hnone : ∀ label rest, ¬Labelled body label rest := fun label rest h' => hl ⟨label, rest, h'⟩
      rcases h with ⟨-, rfl, rfl⟩ | ⟨m, h, -⟩
      · exact .bare hnone
      · rw [read_of_not_labelled hnone] at h
        cases h

/-- A body splits in one way at most. -/
theorem Splits.unique {body text text' : List Char} {modifier modifier' : Option Modifier}
    (h : Splits body modifier text) (h' : Splits body modifier' text') : modifier = modifier' ∧ text = text' := by
  cases h with
  | bare hnone =>
    cases h' with
    | bare => exact ⟨rfl, rfl⟩
    | shown h' => exact absurd h' (hnone _ _)
  | shown h =>
    cases h' with
    | bare hnone => exact absurd h (hnone _ _)
    | shown h' => exact ⟨rfl, (h.unique h').2⟩

/-! ## What a text stands for -/

/-- A name is not found exactly if no argument has it. -/
theorem find?_eq_none_iff_name {named : List NamedArgument} {name : String} :
    named.find? (fun argument => argument.name = name) = none ↔ ∀ argument ∈ named, argument.name ≠ name := by
  simp [List.find?_eq_none]

/-- The argument that is looked up has the name. -/
theorem name_of_find? {named : List NamedArgument} {name : String} {argument : NamedArgument}
    (h : named.find? (fun argument => argument.name = name) = some argument) : argument.name = name := by
  have hn := List.find?_some h
  exact of_decide_eq_true hn

/-- With distinct names, the argument that is looked up is the one of that name. -/
theorem find?_eq_some_iff_name {named : List NamedArgument} (hd : (named.map (·.name)).Nodup) {name : String}
    {argument : NamedArgument} :
    named.find? (fun argument => argument.name = name) = some argument ↔ argument ∈ named ∧ argument.name = name := by
  constructor
  · intro h
    exact ⟨List.mem_of_find?_eq_some h, name_of_find? h⟩
  · rintro ⟨hm, hn⟩
    cases hf : named.find? (fun argument => argument.name = name) with
    | none => exact absurd hn (find?_eq_none_iff_name.1 hf argument hm)
    | some other =>
      have ho := name_of_find? hf
      rw [List.inj_on_of_nodup_map hd (List.mem_of_find?_eq_some hf) hm (ho.trans hn.symm)]

/-- Blanks around a text do not count when it is read as an expression. -/
theorem parse_ofList_trim (text : List Char) (place : Span) :
    Expression.parse (String.ofList (trim text)) place = Expression.parse (String.ofList text) place := by
  simp only [Expression.parse, String.toList_ofList, trim_trim]

/-- Whether a text is an expression does not depend on where it stands. -/
theorem parse_ok_of_parse_ok {text : String} {place : Span} {expression : Expression}
    (h : Expression.parse text place = .ok expression) (other : Span) :
    ∃ expression, Expression.parse text other = .ok expression := by
  unfold Expression.parse at h ⊢
  split at h
  · cases h
  · split at h
    · exact ⟨_, rfl⟩
    · cases h

/-- A text is resolved to what it stands for. -/
theorem resolve_eq_ok_iff {named : List NamedArgument} (hd : (named.map (·.name)).Nodup) {text : List Char} {place : Span}
    {expression : Expression} : resolve named text place = .ok expression ↔ Denotes named text place expression := by
  unfold resolve
  cases hf : named.find? (fun argument => argument.name = String.ofList (trim text)) with
  | none =>
    have hnone := find?_eq_none_iff_name.1 hf
    rw [← parse_ofList_trim]
    constructor
    · intro h
      exact .expression hnone h
    · intro h
      cases h with
      | argument hm hn => exact absurd hn (hnone _ hm)
      | expression _ h => exact h
  | some argument =>
    obtain ⟨hm, hn⟩ := (find?_eq_some_iff_name hd).1 hf
    constructor
    · intro h
      cases h
      exact .argument hm hn
    · intro h
      cases h with
      | argument hm' hn' =>
        rw [List.inj_on_of_nodup_map hd hm' hm (hn'.trans hn.symm)]
      | expression hnone _ => exact absurd hn (hnone argument hm)

/-- A text uses the name that it is, if it is that of an argument. -/
theorem usedName?_eq_some_iff {named : List NamedArgument} {text : List Char} {name : String} :
    usedName? named text = some name ↔ (∃ argument ∈ named, argument.name = name) ∧ String.ofList (trim text) = name := by
  rw [usedName?, Option.map_eq_some_iff]
  constructor
  · rintro ⟨argument, hf, rfl⟩
    exact ⟨⟨argument, List.mem_of_find?_eq_some hf, rfl⟩, (name_of_find? hf).symm⟩
  · rintro ⟨⟨argument, hm, hn⟩, rfl⟩
    cases hf : named.find? (fun argument => argument.name = String.ofList (trim text)) with
    | none => exact absurd hn (find?_eq_none_iff_name.1 hf argument hm)
    | some other => exact ⟨other, rfl, name_of_find? hf⟩

end PrivateLog.Template
