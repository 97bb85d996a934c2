import PrivateLog.Proofs.Token.Numbers

/-!
# Positions of tuple fields

A number behind a dot names at least one tuple field (`fieldPath?_ne_nil`), and the number of each of these fields, written
plainly, names that field alone (`fieldPath?_toString`). It begins as no other literal does (`exists_first_of_fieldPath?`).
-/

namespace PrivateLog.Number

/-- A text has a part even if it has no dot. -/
theorem splitDots_ne_nil (text : List Char) : splitDots text ≠ [] := by
  cases text with
  | nil => exact List.cons_ne_nil _ _
  | cons c text =>
    rw [splitDots]
    split
    · exact List.cons_ne_nil _ _
    · split <;> exact List.cons_ne_nil _ _

/-- What names fields has parts that are whole numbers below the bound. -/
theorem exists_parts_of_fieldPath? {text : List Char} {positions : List Nat} {dotted : Bool}
    (h : fieldPath? text = some (positions, dotted)) :
    (if dotted then (splitDots text).dropLast else splitDots text).mapM wholeValue? = some positions ∧
      (dotted = true → 1 < (splitDots text).length) ∧ ∀ n ∈ positions, n < Nat.pow 2 32 := by
  obtain ⟨positions, hpositions, h⟩ := Option.bind_eq_some_iff.1 h
  obtain ⟨_, hbound, h⟩ := Option.bind_eq_some_iff.1 h
  cases h
  rw [Option.guard_eq_some', List.all_eq_true] at hbound
  refine ⟨hpositions, fun hdotted => ?_, fun n hn => of_decide_eq_true (hbound n hn)⟩
  rw [Bool.and_eq_true, decide_eq_true_eq] at hdotted
  exact hdotted.1

/-- A number behind a dot names a tuple field. -/
theorem fieldPath?_ne_nil {text : List Char} {positions : List Nat} {dotted : Bool}
    (h : fieldPath? text = some (positions, dotted)) : positions ≠ [] := by
  rintro rfl
  obtain ⟨hparts, hlength, -⟩ := exists_parts_of_fieldPath? h
  have hnil : (if dotted then (splitDots text).dropLast else splitDots text) = [] := by
    cases heq : (if dotted then (splitDots text).dropLast else splitDots text) with
    | nil => rfl
    | cons part parts =>
      rw [heq, List.mapM_cons] at hparts
      obtain ⟨_, -, hparts⟩ := Option.bind_eq_some_iff.1 hparts
      obtain ⟨_, -, hparts⟩ := Option.bind_eq_some_iff.1 hparts
      cases hparts
  cases dotted with
  | false => exact splitDots_ne_nil text hnil
  | true =>
    have hlast := congrArg List.length hnil
    rw [if_pos rfl, List.length_dropLast, List.length_nil] at hlast
    have hmore := hlength rfl
    omega

/-! ## How a position begins -/

/-- What no digit begins is no number. -/
theorem wholeValue?_of_first {c : Char} {text : List Char} (hbase : splitBase (c :: text) = (10, c :: text))
    (hc : digitValue? 10 c = none) (hgap : c ≠ '_') : wholeValue? (c :: text) = none := by
  unfold wholeValue?
  rw [hbase]
  dsimp only
  generalize hstep : (fun (acc : Option (Option Nat)) (c : Char) => _) = step
  have hfirst : step (some none) c = none := by
    rw [← hstep]
    simp [hgap, hc]
  have hnone : ∀ text : List Char, text.foldl step none = none := by
    intro text
    induction text with
    | nil => rfl
    | cons c text ih =>
      have hnext : step none c = none := by rw [← hstep]; rfl
      rw [List.foldl_cons, hnext, ih]
  rw [List.foldl_cons, hfirst, hnone]
  rfl

/-- The first part of what names fields is a number, unless it is empty. -/
theorem exists_wholeValue?_of_fieldPath? {c : Char} {text : List Char} {positions : List Nat} {dotted : Bool}
    (h : fieldPath? (c :: text) = some (positions, dotted)) (hdot : c ≠ '.') :
    ∃ part, (wholeValue? (c :: part)).isSome = true := by
  obtain ⟨hparts, hlength, -⟩ := exists_parts_of_fieldPath? h
  obtain ⟨part, parts, hsplit⟩ : ∃ part parts, splitDots (c :: text) = (c :: part) :: parts := by
    rw [splitDots, if_neg hdot]
    split
    · exact ⟨_, _, rfl⟩
    · exact ⟨_, _, rfl⟩
  obtain ⟨others, hfirst⟩ :
      ∃ others, (if dotted then (splitDots (c :: text)).dropLast else splitDots (c :: text)) = (c :: part) :: others := by
    rw [hsplit] at hlength ⊢
    cases dotted with
    | false => exact ⟨_, rfl⟩
    | true =>
      cases parts with
      | nil => exact absurd (hlength rfl) (Nat.lt_irrefl 1)
      | cons => exact ⟨_, rfl⟩
  rw [hfirst, List.mapM_cons] at hparts
  obtain ⟨n, hn, -⟩ := Option.bind_eq_some_iff.1 hparts
  exact ⟨part, by rw [hn]; rfl⟩

/-- What names fields begins as no literal does that is no number. -/
theorem exists_first_of_fieldPath? {text : List Char} {positions : List Nat} {dotted : Bool}
    (h : fieldPath? text = some (positions, dotted)) : ∃ c rest, text = c :: rest ∧ c ∉ ['"', '\'', 'b', 'c', 'r'] := by
  cases text with
  | nil => cases h
  | cons c text =>
    refine ⟨c, text, rfl, fun hc => ?_⟩
    simp only [List.mem_cons, List.not_mem_nil, or_false] at hc
    obtain ⟨part, hpart⟩ := exists_wholeValue?_of_fieldPath? h (by rcases hc with rfl | rfl | rfl | rfl | rfl <;> decide)
    rw [wholeValue?_of_first (by rcases hc with rfl | rfl | rfl | rfl | rfl <;> rfl)
      (by rcases hc with rfl | rfl | rfl | rfl | rfl <;> decide)
      (by rcases hc with rfl | rfl | rfl | rfl | rfl <;> decide)] at hpart
    cases hpart

/-! ## A position written plainly -/

/-- Digits have no dot between them. -/
theorem splitDots_of_isDigit {text : List Char} (h : ∀ c ∈ text, c.isDigit = true) : splitDots text = [text] := by
  induction text with
  | nil => rfl
  | cons c text ih =>
    obtain ⟨hc, htext⟩ := List.forall_mem_cons.1 h
    have hdot : c ≠ '.' := by
      rintro rfl
      cases hc
    rw [splitDots, if_neg hdot, ih htext]

/-- The value of a decimal digit. -/
theorem digitValue?_of_isDigit {c : Char} (h : c.isDigit = true) : digitValue? 10 c = some (c.toNat - '0'.toNat) := by
  obtain ⟨-, hhigh⟩ := Char.isDigit_iff_toNat.1 h
  have hbounds : '0'.toNat = 48 ∧ '9'.toNat = 57 := ⟨rfl, rfl⟩
  have hvalue : c.toNat - 48 < 10 := by omega
  simp [digitValue?, h, hvalue]

/-- The value of digits is what they stand for in base ten. -/
theorem wholeValue?_of_isDigit {text : List Char} (h : ∀ c ∈ text, c.isDigit = true) (hne : text ≠ []) :
    wholeValue? text = some (Nat.ofDigitChars 10 text 0) := by
  unfold wholeValue?
  rw [splitBase_of_isDigit h]
  dsimp only
  generalize hstep : (fun (acc : Option (Option Nat)) (c : Char) => _) = step
  have hdigit : ∀ value c, c.isDigit = true →
      step (some value) c = some (some (value.getD 0 * 10 + (c.toNat - '0'.toNat))) := by
    intro value c hc
    have hgap : c ≠ '_' := by
      rintro rfl
      cases hc
    rw [← hstep]
    simp [hgap, digitValue?_of_isDigit hc]
  have hfold : ∀ text : List Char, (∀ c ∈ text, c.isDigit = true) → ∀ value,
      text.foldl step (some (some value)) = some (some (Nat.ofDigitChars 10 text value)) := by
    intro text
    induction text with
    | nil => exact fun _ _ => rfl
    | cons c text ih =>
      intro h value
      obtain ⟨hc, htext⟩ := List.forall_mem_cons.1 h
      rw [List.foldl_cons, hdigit _ c hc, ih htext, Nat.ofDigitChars_cons, Option.getD_some, Nat.mul_comm]
  obtain ⟨c, text, rfl⟩ := List.exists_cons_of_ne_nil hne
  obtain ⟨hc, htext⟩ := List.forall_mem_cons.1 h
  rw [List.foldl_cons, hdigit _ c hc, hfold text htext, Nat.ofDigitChars_cons]
  rfl

/-- The number of a field, written plainly, names that field. -/
theorem fieldPath?_toString {n : Nat} (hn : n < Nat.pow 2 32) : fieldPath? (toString n).toList = some ([n], false) := by
  have htext : (toString n).toList = Nat.toDigits 10 n := by simp
  have hdigits : ∀ c ∈ (toString n).toList, c.isDigit = true := by
    rw [htext]
    exact fun c hc => Nat.isDigit_of_mem_toDigits (by decide) (by decide) hc
  have hne : (toString n).toList ≠ [] := by
    rw [htext]
    exact Nat.toDigits_ne_nil
  have hvalue : wholeValue? (toString n).toList = some n := by
    rw [wholeValue?_of_isDigit hdigits hne, htext, Nat.ofDigitChars_toDigits (by decide) (by decide)]
  have hbound : n < 4294967296 := hn
  rw [fieldPath?, splitDots_of_isDigit hdigits]
  generalize (toString n).toList = text at hvalue
  simp [hvalue, hbound]

end PrivateLog.Number
