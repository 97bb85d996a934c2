import PrivateLog.Proofs.Template.Acceptance
import PrivateLog.Proofs.Template.Bracketed
import PrivateLog.Proofs.Template.Unlabelled

/-!
# Interpolating an expression

A template that is a single placeholder, with or without the public label and with a blank on either side of an expression
(`interpolation`). Its colons do no harm, since no expression has a label (`splits_interpolationBody`), but its braces are
counted wherever they stand: the template is read as what the expression is exactly if the braces of the expression are
balanced (`read_interpolation_iff`). They are if all of them are brackets, and need not be if one stands in a literal or in a
comment (`read_interpolation_brace`).
-/

namespace PrivateLog.Template

open Text

/-- The label that asks for a modifier, as it stands in front of an expression. -/
def labelling : Option Modifier → List Char
  | none => []
  | some modifier => modifier.label.toList ++ [':']

/-- The body of a placeholder with a blank on either side of a text. -/
def interpolationBody (modifier : Option Modifier) (text : List Char) : List Char :=
  labelling modifier ++ ' ' :: (text ++ [' '])

/-- The template that is such a placeholder. -/
def interpolation (modifier : Option Modifier) (text : List Char) : List Char :=
  (Item.placeholder (interpolationBody modifier text)).spelling

/-! ## Balance -/

/-- A character at the end that is no brace does not matter. -/
theorem balanced_concat_iff {text : List Char} {c : Char} (h : c ≠ '{' ∧ c ≠ '}') :
    Balanced (text ++ [c]) ↔ Balanced text := by
  obtain ⟨ho, hc⟩ := h
  have hopen : (text ++ [c]).count '{' = text.count '{' := by simp [ho]
  have hclose : (text ++ [c]).count '}' = text.count '}' := by simp [hc]
  unfold Balanced
  rw [hopen, hclose]
  refine and_congr_left fun htotal => ⟨fun h front hf => h front (hf.trans (List.prefix_append _ _)), fun h front hf => ?_⟩
  rcases List.prefix_concat_iff.1 hf with rfl | hf
  · exact Nat.le_of_eq (hclose.trans (htotal.trans hopen.symm))
  · exact h front hf

/-- Nor do many. -/
theorem balanced_append_iff {text behind : List Char} (h : ∀ c ∈ behind, c ≠ '{' ∧ c ≠ '}') :
    Balanced (text ++ behind) ↔ Balanced text := by
  induction behind generalizing text with
  | nil => rw [List.append_nil]
  | cons c behind ih =>
    obtain ⟨hc, hbehind⟩ := List.forall_mem_cons.1 h
    rw [List.append_cons, ih hbehind, balanced_concat_iff hc]

/-- Blanks around a text do not matter. -/
theorem balanced_trim_iff (text : List Char) : Balanced (trim text) ↔ Balanced text := by
  have hblank : ∀ c : Char, isBlank c = true → c ≠ '{' ∧ c ≠ '}' := by
    rintro c hc
    constructor <;> rintro rfl <;> revert hc <;> decide
  obtain ⟨blanks, hblanks, htrim⟩ := exists_trimEnd_append (trimStart text)
  have hstart : Balanced text ↔ Balanced (trimStart text) := by
    conv_lhs => rw [← List.takeWhile_append_dropWhile (p := isBlank) (l := text)]
    rw [balanced_iff_closes, balanced_iff_closes]
    exact closes_append_iff fun c hc => hblank c (List.all_eq_true.1 List.all_takeWhile c hc)
  have hend : Balanced (trimStart text) ↔ Balanced (trim text) := by
    conv_lhs => rw [htrim]
    exact balanced_append_iff fun c hc => hblank c (hblanks c hc)
  exact (hstart.trans hend).symm

/-- The body is balanced if the text in it is. -/
theorem balanced_interpolationBody (modifier : Option Modifier) (text : List Char) :
    Balanced (interpolationBody modifier text) ↔ Balanced text := by
  have hlabel : ∀ c ∈ labelling modifier ++ [' '], c ≠ '{' ∧ c ≠ '}' := by
    cases modifier with
    | none => simp [labelling]
    | some modifier => cases modifier; simp [labelling, Modifier.label]
  rw [interpolationBody, List.append_cons, balanced_iff_closes, closes_append_iff hlabel, ← balanced_iff_closes,
    balanced_concat_iff (by decide)]

/-! ## Reading -/

section
variable {text : String} {origin : Span} {expression : Expression}

/-- An expression is the same wherever it stands, and with a blank on either side. -/
theorem parse_interpolated (h : Expression.parse text origin = .ok expression) (place : Span) :
    Expression.parse (String.ofList (trim (' ' :: (text.toList ++ [' '])))) place =
      .ok { expression with place := place } := by
  obtain ⟨hne, tokens, hread, rfl⟩ := Expression.parse_eq_ok_iff.1 h
  refine Expression.parse_eq_ok_iff.2 ?_
  rw [trim_cons_append _ (by decide) (by decide), String.toList_ofList, trim_trim]
  exact ⟨hne, tokens, hread, rfl⟩

/-- The body is split where the label ends: the colons of an expression are no part of a label. -/
theorem splits_interpolationBody (h : Expression.parse text origin = .ok expression) (modifier : Option Modifier) :
    Splits (interpolationBody modifier text.toList) modifier (' ' :: (text.toList ++ [' '])) := by
  cases modifier with
  | none =>
    have hparse := parse_interpolated h origin
    rw [parse_ofList_trim] at hparse
    exact .bare (not_labelled_of_parse hparse)
  | some modifier =>
    cases modifier
    exact .shown ⟨"public".toList, by simp [interpolationBody, labelling, Modifier.label], by decide, by decide, by simp⟩

/-- The row of items that is this placeholder alone is accepted if the expression is balanced. -/
theorem accepted_interpolation (h : Expression.parse text origin = .ok expression) (modifier : Option Modifier)
    (hbalanced : Balanced text.toList) :
    Accepted [] (interpolation modifier text.toList) [.placeholder (interpolationBody modifier text.toList)] := by
  have hhead : (interpolationBody modifier text.toList).head? ≠ some '{' := by
    cases modifier with
    | none => simp [interpolationBody, labelling]
    | some modifier => cases modifier; simp [interpolationBody, labelling, Modifier.label]
  have hvalid : (Item.placeholder (interpolationBody modifier text.toList)).IsValid :=
    ⟨(balanced_interpolationBody modifier _).2 hbalanced, hhead⟩
  refine ⟨List.nodup_nil, ⟨List.forall_mem_singleton.2 hvalid, ?_⟩, fun body hbody => ?_, fun _ hm => absurd hm List.not_mem_nil⟩
  · simp [interpolation]
  · obtain ⟨rfl⟩ := List.mem_singleton.1 hbody
    exact ⟨_, ⟨modifier, _, splits_interpolationBody h modifier, rfl⟩,
      Or.inr ⟨origin, _, parse_interpolated h origin⟩⟩

/-- It stands for the placeholder of the expression. -/
theorem reads_interpolation (h : Expression.parse text origin = .ok expression) (modifier : Option Modifier)
    (place : Span → Span) :
    Reads [] place [.placeholder (interpolationBody modifier text.toList)]
      ⟨[.placeholder { expression with place := place ⟨0, byteLength (interpolation modifier text.toList)⟩ } modifier]⟩ := by
  refine ⟨by simp [Runs.Merged, segmentPart], ?_⟩
  simp only [List.map_cons, List.map_nil, segmentPart, Runs.spread, locate, Nat.zero_add]
  refine .cons (.placeholder (splits_interpolationBody h modifier) ?_) .nil
  exact .expression (fun _ hm => absurd hm List.not_mem_nil) (parse_interpolated h _)

/-- A value that is read as a placeholder alone is one, and its body is balanced. -/
theorem balanced_of_read {body : List Char} {place : Span → Span} {found : Expression} {modifier : Option Modifier}
    (h : read (Item.placeholder body).spelling [] place = .ok ⟨[.placeholder found modifier]⟩) : Balanced body := by
  obtain ⟨items, haccepted, -, hreads⟩ := read_eq_ok_iff_reads.1 h
  obtain ⟨hvalid, hspelling⟩ := haccepted.decomposes
  simp only [List.map_cons, List.map_nil, segmentPart, Runs.spread] at hreads
  cases items with
  | nil => cases hreads
  | cons item items =>
    cases hreads with
    | cons hitem hrest =>
      cases items with
      | cons item' items => cases hrest
      | nil =>
        cases hitem with
        | placeholder hsplits hdenotes =>
          rw [List.flatMap_singleton, Item.spelling, Item.spelling, List.cons.injEq, List.append_cancel_right_eq]
            at hspelling
          obtain ⟨-, rfl⟩ := hspelling
          exact (List.forall_mem_singleton.1 hvalid).1

/-- An expression in a placeholder of its own, with the public label or without one, is read as this placeholder exactly if
the braces of the expression are balanced. They are if every brace of it is a bracket. -/
theorem read_interpolation_iff (h : Expression.parse text origin = .ok expression) (modifier : Option Modifier)
    (place : Span → Span) :
    (read (interpolation modifier text.toList) [] place =
        .ok ⟨[.placeholder { expression with place := place ⟨0, byteLength (interpolation modifier text.toList)⟩ }
          modifier]⟩ ↔
      Balanced text.toList) ∧
      (Bracketed (trim text.toList) → Balanced text.toList) := by
  refine ⟨⟨fun hread => ?_, fun hbalanced => ?_⟩, fun hbracketed => ?_⟩
  · exact (balanced_interpolationBody modifier _).1 (balanced_of_read hread)
  · exact read_eq_ok_iff_reads.2 ⟨_, accepted_interpolation h modifier hbalanced, reads_interpolation h modifier place⟩
  · obtain ⟨-, tokens, hread, -⟩ := Expression.parse_eq_ok_iff.1 h
    obtain ⟨read, hread, -⟩ := Option.bind_eq_some_iff.1 hread
    exact (balanced_trim_iff _).1 (balanced_of_bracketed hbracketed hread)

/-- A structure with braces and a colon of its own, behind the public label. -/
theorem read_interpolation_iff_structure :
    ∃ expression, Expression.parse "S \x7b a: 1 \x7d" ⟨0, 0⟩ = .ok expression ∧
      Bracketed (trim "S \x7b a: 1 \x7d".toList) ∧
      read "\x7bpublic: S \x7b a: 1 \x7d \x7d".toList [] id =
        .ok ⟨[.placeholder { expression with place := ⟨0, 21⟩ } (some .shown)]⟩ := by
  have hparse : (Expression.parse "S \x7b a: 1 \x7d" ⟨0, 0⟩).isOk = true := by decide +kernel
  have hbracketed : Bracketed (trim "S \x7b a: 1 \x7d".toList) := by
    have hnone : ∀ c, c ≠ '{' ∧ c ≠ '}' → ∀ d ∈ [c], d ≠ '{' ∧ d ≠ '}' :=
      fun c hc d hd => (List.mem_singleton.1 hd).symm ▸ hc
    have hs : Bracketed "S \x7b a: 1 \x7d".toList :=
      @Bracketed.piece ['S'] _ _ rfl (hnone 'S' (by decide)) <|
      @Bracketed.piece [' '] _ _ rfl (hnone ' ' (by decide)) <| .opening <|
      @Bracketed.piece [' '] _ _ rfl (hnone ' ' (by decide)) <|
      @Bracketed.piece ['a'] _ _ rfl (hnone 'a' (by decide)) <|
      @Bracketed.piece [':'] _ _ rfl (hnone ':' (by decide)) <|
      @Bracketed.piece [' '] _ _ rfl (hnone ' ' (by decide)) <|
      @Bracketed.piece ['1'] _ _ rfl (hnone '1' (by decide)) <|
      @Bracketed.piece [' '] _ _ rfl (hnone ' ' (by decide)) <| .closing .nil
    have htrim : trim "S \x7b a: 1 \x7d".toList = "S \x7b a: 1 \x7d".toList := by decide
    rwa [htrim]
  cases h : Expression.parse "S \x7b a: 1 \x7d" ⟨0, 0⟩ with
  | error fault =>
    rw [h] at hparse
    cases hparse
  | ok expression =>
    have hvalue : interpolation (some .shown) "S \x7b a: 1 \x7d".toList = "\x7bpublic: S \x7b a: 1 \x7d \x7d".toList := by
      decide
    have hlength : byteLength "\x7bpublic: S \x7b a: 1 \x7d \x7d".toList = 21 := by decide
    obtain ⟨hiff, hbalanced⟩ := read_interpolation_iff h (some .shown) id
    rw [hvalue, hlength] at hiff
    exact ⟨expression, rfl, hbracketed, hiff.2 (hbalanced hbracketed)⟩

/-- A closing brace in a character literal ends the placeholder. -/
theorem read_interpolation_brace :
    (∃ expression, Expression.parse "'\x7d'" ⟨0, 0⟩ = .ok expression) ∧
      read "\x7b '\x7d' \x7d".toList [] id = .error ⟨.invalidExpression "'", ⟨0, 4⟩⟩ := by
  have hparse : (Expression.parse "'\x7d'" ⟨0, 0⟩).isOk = true := by decide +kernel
  have hread : (fun _ => ()) <$> read "\x7b '\x7d' \x7d".toList [] id =
      .error ⟨.invalidExpression "'", ⟨0, 4⟩⟩ := by
    decide +kernel
  refine ⟨?_, Outcome.map_eq_error_iff.1 hread⟩
  cases h : Expression.parse "'\x7d'" ⟨0, 0⟩ with
  | error fault =>
    rw [h] at hparse
    cases hparse
  | ok expression => exact ⟨expression, rfl⟩

end

end PrivateLog.Template
