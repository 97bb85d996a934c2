import PrivateLog.Proofs.Token.Consuming
import Mathlib.Data.Bool.AllAny
import Mathlib.Data.List.TakeWhile
import Mathlib.Tactic.SplitIfs

/-!
# Where numbers end

A number does not depend on what stands behind it, as long as that ends every token: a blank, a closing bracket, or the end
of the text (`Number.skip_append`). The delicate case is a number that is read as whole only because what stands behind it
is no exponent, such as `1e` before a sign; its characters are those of identifiers, so a blank makes no exponent of it
either.
-/

namespace PrivateLog

open Text

/-- The characters that end every token: the blank, and the closing brackets. -/
def tokenEnds : List Char :=
  [' ', ')', ']', '}']

/-- Whether a text is at its end, or at a character that ends every token. -/
def EndsToken (text : List Char) : Prop :=
  ∀ c ∈ text.head?, c ∈ tokenEnds

namespace Number

/-! ## Characters of numbers -/

/-- No identifier goes on where every token ends. -/
theorem endsHere_of_endsToken {text : List Char} (h : EndsToken text) : endsHere text = true := by
  cases text with
  | nil => rfl
  | cons c text =>
    have hall : ∀ c ∈ tokenEnds, isIdentifierContinue c = false := List.all_iff_forall_prop.1 (by decide +kernel)
    rw [endsHere, hall c (h c rfl)]
    rfl

/-- Digits and the underscores between them are characters of identifiers, -/
theorem isIdentifierContinue_of_isDigitOrGap {c : Char} (h : isDigitOrGap c = true) : isIdentifierContinue c = true := by
  have hall : ∀ n < 96, isDigitOrGap (Char.ofNat n) = true → isIdentifierContinue (Char.ofNat n) = true := by
    decide +kernel
  have hbound : c.toNat < 96 := by
    rcases Bool.or_eq_true_iff.1 h with hdigit | hgap
    · exact Nat.lt_of_le_of_lt (Char.isDigit_iff_toNat.1 hdigit).2 (by decide)
    · rw [eq_of_beq hgap]
      decide
  have hc := hall c.toNat hbound
  rw [Char.ofNat_toNat] at hc
  exact hc h

/-- and so are digits in any base. -/
theorem isIdentifierContinue_of_digitValue? {base : Nat} {c : Char} (h : (digitValue? base c).isSome = true) :
    isIdentifierContinue c = true := by
  have hall : ∀ n < 103, ((Char.ofNat n).isDigit = true ∨ ('a' ≤ Char.ofNat n ∧ Char.ofNat n ≤ 'f') ∨
      ('A' ≤ Char.ofNat n ∧ Char.ofNat n ≤ 'F')) → isIdentifierContinue (Char.ofNat n) = true := by
    decide +kernel
  have hdigit : c.isDigit = true ∨ ('a' ≤ c ∧ c ≤ 'f') ∨ ('A' ≤ c ∧ c ≤ 'F') := by
    unfold digitValue? at h
    split_ifs at h with h1 h2 h3
    · exact Or.inl h1
    · exact Or.inr (Or.inl h2)
    · exact Or.inr (Or.inr h3)
    · simp at h
  have hbound : c.toNat < 103 := by
    rcases hdigit with h | ⟨-, h⟩ | ⟨-, h⟩
    · exact Nat.lt_of_le_of_lt (Char.isDigit_iff_toNat.1 h).2 (by decide)
    · exact Nat.lt_of_le_of_lt (UInt32.le_iff_toNat_le.1 h) (by decide)
    · exact Nat.lt_of_le_of_lt (UInt32.le_iff_toNat_le.1 h) (by decide)
  have hc := hall c.toNat hbound
  rw [Char.ofNat_toNat] at hc
  exact hc hdigit

variable {x y : List Char}

/-- What passes a test that only characters of identifiers pass ends where no identifier goes on. -/
theorem dropWhile_append_of_endsHere {test : Char → Bool} (htest : ∀ c, test c = true → isIdentifierContinue c = true)
    (hx : endsHere x = true) (text : List Char) : (text ++ x).dropWhile test = text.dropWhile test ++ x := by
  have hself : x.dropWhile test = x := by
    cases x with
    | nil => rfl
    | cons c x =>
      refine List.dropWhile_cons_of_neg fun hc => ?_
      rw [endsHere, htest c hc] at hx
      cases hx
  rw [List.dropWhile_append, hself]
  split
  · rename_i hempty
    rw [List.isEmpty_iff.1 hempty, List.nil_append]
  · rfl

/-- So do digits. -/
theorem dropDigits_append (hx : endsHere x = true) (text : List Char) :
    (text ++ x).dropWhile isDigitOrGap = text.dropWhile isDigitOrGap ++ x :=
  dropWhile_append_of_endsHere (fun _ => isIdentifierContinue_of_isDigitOrGap) hx text

/-- And so does a suffix. -/
theorem skipSuffix_append (hx : endsHere x = true) (text : List Char) : skipSuffix (text ++ x) = skipSuffix text ++ x := by
  cases text with
  | nil =>
    cases x with
    | nil => rfl
    | cons c x =>
      have hc : isIdentifierStart c = false := by
        cases hs : isIdentifierStart c with
        | false => rfl
        | true =>
          rw [endsHere, isIdentifierContinue_of_isIdentifierStart hs] at hx
          cases hx
      simp [skipSuffix, hc]
  | cons c text =>
    rw [List.cons_append, skipSuffix, skipSuffix]
    split
    · exact dropWhile_append_of_endsHere (fun _ h => h) hx text
    · rfl

/-! ## Exponents and fractions -/

/-- A text that is not empty is no end of what is behind its first character. -/
theorem eq_nil_of_suffix_tail {rest : List Char} (h : rest ++ x <:+ x.tail) : x = [] := by
  have hlength := h.length_le
  cases x with
  | nil => rfl
  | cons c x =>
    simp only [List.length_append, List.tail_cons, List.length_cons] at hlength
    omega

/-- An exponent ends there, too. -/
theorem skipExponent_append (hx : endsHere x = true) (hy : endsHere y = true) {signed : Bool} {text rest : List Char}
    (h : skipExponent signed (text ++ x) = some (rest ++ x)) : skipExponent signed (text ++ y) = some (rest ++ y) := by
  induction text generalizing signed with
  | nil =>
    obtain rfl := eq_nil_of_suffix_tail (suffix_of_skipExponent h)
    cases h
  | cons c text ih =>
    rw [List.cons_append, skipExponent] at h ⊢
    split at h
    · rename_i hsign
      rw [if_pos hsign]
      split at h
      · cases h
      · rename_i hsigned
        rw [if_neg hsigned]
        exact ih h
    · rename_i hsign
      rw [if_neg hsign]
      split at h
      · rename_i hdigit
        rw [dropDigits_append hx, Option.some.injEq] at h
        rw [if_pos hdigit, dropDigits_append hy, List.append_cancel_right h]
      · rename_i hdigit
        rw [if_neg hdigit]
        split at h
        · rename_i hgap
          rw [if_pos hgap]
          exact ih h
        · cases h

/-- There is no exponent where every token ends. -/
theorem skipExponent_of_endsToken (hy : EndsToken y) (signed : Bool) : skipExponent signed y = none := by
  cases y with
  | nil => rfl
  | cons c y =>
    have hall : ∀ c ∈ tokenEnds, ¬(c = '+' ∨ c = '-') ∧ ¬c.isDigit = true ∧ ¬c = '_' := List.all_iff_forall_prop.1 (by decide)
    obtain ⟨hsign, hdigit, hgap⟩ := hall c (hy c rfl)
    rw [skipExponent, if_neg hsign, if_neg hdigit, if_neg hgap]

/-- So an exponent that is found in front of such an end stands in front of all of it. -/
theorem exists_append_of_skipExponent (hy : EndsToken y) {signed : Bool} {text behind : List Char}
    (h : skipExponent signed (text ++ y) = some behind) : ∃ rest, behind = rest ++ y := by
  induction text generalizing signed with
  | nil =>
    rw [List.nil_append, skipExponent_of_endsToken hy] at h
    cases h
  | cons c text ih =>
    rw [List.cons_append, skipExponent] at h
    split at h
    · split at h
      · cases h
      · exact ih h
    · split at h
      · rw [dropDigits_append (endsHere_of_endsToken hy)] at h
        exact ⟨_, (Option.some.inj h).symm⟩
      · split at h
        · exact ih h
        · cases h

/-- Where no exponent is, there is none if a token ends instead. -/
theorem skipExponent_append_eq_none (hy : EndsToken y) {signed : Bool} {text : List Char}
    (h : skipExponent signed (text ++ x) = none) : skipExponent signed (text ++ y) = none := by
  induction text generalizing signed with
  | nil => exact skipExponent_of_endsToken hy signed
  | cons c text ih =>
    rw [List.cons_append, skipExponent] at h ⊢
    split at h
    · rename_i hsign
      rw [if_pos hsign]
      split at h
      · rename_i hsigned
        rw [if_pos hsigned]
      · rename_i hsigned
        rw [if_neg hsigned]
        exact ih h
    · rename_i hsign
      rw [if_neg hsign]
      split at h
      · cases h
      · rename_i hdigit
        rw [if_neg hdigit]
        split at h
        · rename_i hgap
          rw [if_pos hgap]
          exact ih h
        · rename_i hgap
          rw [if_neg hgap]

/-- The text behind an exponent that may be missing. -/
def skipOptionalExponent : List Char → List Char
  | [] => []
  | e :: text => if e = 'e' ∨ e = 'E' then (skipExponent false text).getD (e :: text) else e :: text

/-- A fraction is a dot, which neither a dot nor a name may follow, digits, and perhaps an exponent. -/
theorem skipFraction_dot (text : List Char) :
    skipFraction ('.' :: text) =
      if text.head?.any (fun c => c == '.' || isIdentifierStart c) = true then none
      else some (skipOptionalExponent (text.dropWhile isDigitOrGap)) := by
  cases text with
  | nil => rfl
  | cons c text =>
    simp only [skipFraction, List.head?_cons, Option.any_some, Bool.or_eq_true, beq_iff_eq]
    split
    · rfl
    · split
      · rename_i e rest heq
        rw [heq, skipOptionalExponent]
        split <;> rfl
      · rename_i heq
        rw [heq, skipOptionalExponent]

/-- Without a dot it is an exponent. -/
theorem skipFraction_of_ne_dot {e : Char} (h : e ≠ '.') (text : List Char) :
    skipFraction (e :: text) = if e = 'e' ∨ e = 'E' then skipExponent false text else none := by
  unfold skipFraction
  split
  · rename_i heq
    cases heq
    exact absurd rfl h
  · rename_i heq
    cases heq
    rfl
  · rename_i heq
    cases heq

/-- So there is no fraction where every token ends. -/
theorem skipFraction_of_endsToken (hy : EndsToken y) : skipFraction y = none := by
  cases y with
  | nil => rfl
  | cons c y =>
    have hall : ∀ c ∈ tokenEnds, c ≠ '.' ∧ ¬(c = 'e' ∨ c = 'E') := List.all_iff_forall_prop.1 (by decide)
    obtain ⟨hdot, hexponent⟩ := hall c (hy c rfl)
    rw [skipFraction_of_ne_dot hdot, if_neg hexponent]

/-- An exponent that is missing before one end is missing before the other. -/
theorem skipOptionalExponent_append (hx : endsHere x = true) (hy : EndsToken y) {text rest : List Char}
    (h : skipOptionalExponent (text ++ x) = rest ++ x) : skipOptionalExponent (text ++ y) = rest ++ y := by
  have hself : ∀ {z}, endsHere z = true → skipOptionalExponent z = z := by
    intro z hz
    cases z with
    | nil => rfl
    | cons e z =>
      have hall : ∀ e, e = 'e' ∨ e = 'E' → isIdentifierContinue e = true := by
        rintro e (rfl | rfl) <;> decide +kernel
      refine if_neg fun he => ?_
      rw [endsHere, hall e he] at hz
      cases hz
  cases text with
  | nil =>
    rw [List.nil_append, hself hx] at h
    rw [List.nil_append, hself (endsHere_of_endsToken hy), List.self_eq_append_left.1 h]
    rfl
  | cons e text =>
    rw [List.cons_append, skipOptionalExponent] at h ⊢
    split at h
    · rename_i he
      rw [if_pos he]
      cases hexponent : skipExponent false (text ++ x) with
      | none =>
        rw [hexponent, Option.getD_none, ← List.cons_append] at h
        rw [skipExponent_append_eq_none hy hexponent, Option.getD_none, ← List.cons_append, List.append_cancel_right h]
      | some behind =>
        rw [hexponent, Option.getD_some] at h
        subst h
        rw [skipExponent_append hx (endsHere_of_endsToken hy) hexponent, Option.getD_some]
    · rename_i he
      rw [← List.cons_append] at h
      rw [if_neg he, ← List.cons_append, List.append_cancel_right h]

/-- A fraction ends where every token ends if it ended where no identifier went on. -/
theorem skipFraction_append (hx : endsHere x = true) (hy : EndsToken y) {text rest : List Char} (hne : text ≠ [])
    (h : skipFraction (text ++ x) = some (rest ++ x)) : skipFraction (text ++ y) = some (rest ++ y) := by
  obtain ⟨e, text, rfl⟩ := List.exists_cons_of_ne_nil hne
  by_cases hdot : e = '.'
  · subst hdot
    rw [List.cons_append, skipFraction_dot] at h ⊢
    split at h
    · cases h
    · rename_i hhead
      have hhead' : ¬(text ++ y).head?.any (fun c => c == '.' || isIdentifierStart c) = true := by
        cases text with
        | nil =>
          have hall : ∀ c ∈ tokenEnds, ¬(c == '.' || isIdentifierStart c) = true :=
            List.all_iff_forall_prop.1 (by decide +kernel)
          rw [List.nil_append, Option.any_eq_true_iff_get]
          rintro ⟨hsome, htest⟩
          exact hall _ (hy _ (Option.get_mem hsome)) htest
        | cons c text => exact hhead
      rw [Option.some.injEq, dropDigits_append hx] at h
      rw [if_neg hhead', dropDigits_append (endsHere_of_endsToken hy), skipOptionalExponent_append hx hy h]
  · rw [List.cons_append, skipFraction_of_ne_dot hdot] at h ⊢
    split at h
    · rename_i he
      rw [if_pos he]
      exact skipExponent_append hx (endsHere_of_endsToken hy) h
    · cases h

/-- What is left of a number that ends where no identifier goes on is the end of what the parts of the number leave. -/
theorem exists_append_of_skipSuffix {behind : List Char} (h : skipSuffix behind = x) : ∃ rest, behind = rest ++ x := by
  obtain ⟨rest, hrest⟩ := skipSuffix_suffix behind
  exact ⟨rest, by rw [← hrest, h]⟩

/-- A number with a fraction or an exponent has a digit in front, and ends where no identifier goes on. -/
theorem skipFractional_cons_eq_some_iff {c : Char} {text rest : List Char} :
    skipFractional (c :: text) = some rest ↔
      c.isDigit = true ∧ ∃ behind, skipFraction (text.dropWhile isDigitOrGap) = some behind ∧
        skipSuffix behind = rest ∧ endsHere rest = true := by
  constructor
  · intro h
    obtain ⟨passed, hdigit, h⟩ := Option.bind_eq_some_iff.1 h
    obtain ⟨behind, hfraction, h⟩ := Option.bind_eq_some_iff.1 h
    obtain ⟨ended, hends, h⟩ := Option.bind_eq_some_iff.1 h
    cases h
    exact ⟨(Option.guard_eq_some' passed).1 hdigit, behind, hfraction, rfl, (Option.guard_eq_some' ended).1 hends⟩
  · rintro ⟨hdigit, behind, hfraction, rfl, hends⟩
    simp [skipFractional, hdigit, hfraction, hends]

/-- It stands in front of what is left, also if a token ends there instead. -/
theorem skipFractional_append (hy : EndsToken y) {text : List Char} (h : skipFractional (text ++ x) = some x) :
    skipFractional (text ++ y) = some y := by
  cases text with
  | nil =>
    obtain rfl := @eq_nil_of_suffix_tail x [] (suffix_of_skipFractional h)
    cases h
  | cons c text =>
    rw [List.cons_append, skipFractional_cons_eq_some_iff] at h ⊢
    obtain ⟨hdigit, behind, hfraction, hsuffix, hx⟩ := h
    obtain ⟨rest, rfl⟩ := exists_append_of_skipSuffix hsuffix
    rw [dropDigits_append hx] at hfraction
    rw [skipSuffix_append hx, List.append_left_eq_self] at hsuffix
    have hne : text.dropWhile isDigitOrGap ≠ [] := by
      intro hnil
      rw [hnil, List.nil_append] at hfraction
      obtain rfl := eq_nil_of_suffix_tail (suffix_of_skipFraction hfraction)
      cases hfraction
    refine ⟨hdigit, rest ++ y, ?_, ?_, endsHere_of_endsToken hy⟩
    · rw [dropDigits_append (endsHere_of_endsToken hy)]
      exact skipFraction_append hx hy hne hfraction
    · rw [skipSuffix_append (endsHere_of_endsToken hy), hsuffix, List.nil_append]

/-! ## Whole numbers -/

/-- Where no identifier goes on, digits have ended. -/
theorem skipDigits_of_endsHere (hx : endsHere x = true) (base : Nat) (found : Bool) :
    skipDigits base found x = if found then some x else none := by
  cases x with
  | nil => rfl
  | cons c x =>
    have hgap : ¬c = '_' := fun hc => by rw [endsHere, hc] at hx; revert hx; decide +kernel
    have hvalue : ¬(digitValue? base c).isSome = true := fun hc => by
      rw [endsHere, isIdentifierContinue_of_digitValue? hc] at hx
      cases hx
    have hdigit : c.isDigit = false := by
      cases hc : c.isDigit with
      | false => rfl
      | true =>
        rw [endsHere, isIdentifierContinue_of_isDigitOrGap (by simp [isDigitOrGap, hc])] at hx
        cases hx
    rw [skipDigits, if_neg hgap, if_neg hvalue, hdigit]
    cases found <;> rfl

/-- Digits end there, too. -/
theorem skipDigits_append (hx : endsHere x = true) (hy : endsHere y = true) {base : Nat} {found : Bool}
    {text rest : List Char} (h : skipDigits base found (text ++ x) = some (rest ++ x)) :
    skipDigits base found (text ++ y) = some (rest ++ y) := by
  induction text generalizing found with
  | nil =>
    rw [List.nil_append, skipDigits_of_endsHere hx] at h
    rw [List.nil_append, skipDigits_of_endsHere hy]
    split at h
    · rename_i hfound
      rw [if_pos hfound, List.self_eq_append_left.1 (Option.some.inj h)]
      rfl
    · cases h
  | cons c text ih =>
    rw [List.cons_append, skipDigits] at h ⊢
    split at h
    · rename_i hgap
      rw [if_pos hgap]
      split at h
      · cases h
      · rename_i hfound
        rw [if_neg hfound]
        exact ih h
    · rename_i hgap
      rw [if_neg hgap]
      split at h
      · rename_i hdigit
        rw [if_pos hdigit]
        exact ih h
      · rename_i hdigit
        rw [if_neg hdigit]
        split at h
        · cases h
        · rename_i hlast
          rw [Option.some.injEq, ← List.cons_append] at h
          rw [if_neg hlast, ← List.cons_append, List.append_cancel_right h]

/-- A base is marked by two characters. -/
theorem splitBase_cons_cons (c d : Char) (text : List Char) :
    splitBase (c :: d :: text) =
      if c = '0' ∧ d = 'x' then (16, text) else if c = '0' ∧ d = 'o' then (8, text)
      else if c = '0' ∧ d = 'b' then (2, text) else (10, c :: d :: text) := by
  split_ifs with hx ho hb
  · rw [hx.1, hx.2, splitBase]
  · rw [ho.1, ho.2, splitBase]
  · rw [hb.1, hb.2, splitBase]
  · unfold splitBase
    split <;> simp_all

/-- One character alone marks none. -/
theorem splitBase_singleton (c : Char) : splitBase [c] = (10, [c]) := by
  unfold splitBase
  split <;> simp_all

/-- The mark of a base does not depend on what no identifier goes on with. -/
theorem splitBase_append (hx : endsHere x = true) (text : List Char) :
    splitBase (text ++ x) = ((splitBase text).1, (splitBase text).2 ++ x) := by
  have hhead : ∀ c ∈ ['0', 'x', 'o', 'b'], ∀ more, x ≠ c :: more := by
    rintro c hc more rfl
    have hall : ∀ c ∈ ['0', 'x', 'o', 'b'], isIdentifierContinue c = true := List.all_iff_forall_prop.1 (by decide +kernel)
    rw [endsHere, hall c hc] at hx
    cases hx
  match text with
  | [] =>
    rw [List.nil_append]
    unfold splitBase
    split
    all_goals first
      | rfl
      | exact absurd rfl (hhead '0' (by decide) _)
  | [c] =>
    cases x with
    | nil => rw [List.append_nil, List.append_nil]
    | cons d x =>
      have hmark : ∀ mark ∈ ['x', 'o', 'b'], ¬(c = '0' ∧ d = mark) := by
        rintro mark hm ⟨-, rfl⟩
        exact hhead d (List.mem_cons_of_mem _ hm) x rfl
      rw [List.singleton_append, splitBase_cons_cons, if_neg (hmark 'x' (by decide)), if_neg (hmark 'o' (by decide)),
        if_neg (hmark 'b' (by decide)), splitBase_singleton]
      rfl
  | c :: d :: text =>
    rw [List.cons_append, List.cons_append, splitBase_cons_cons, splitBase_cons_cons]
    split_ifs <;> rfl

/-- A whole number has digits, and ends where no identifier goes on. -/
theorem skipWhole_eq_some_iff {text rest : List Char} :
    skipWhole text = some rest ↔
      ∃ behind, skipDigits (splitBase text).1 false (splitBase text).2 = some behind ∧
        skipSuffix behind = rest ∧ endsHere rest = true := by
  constructor
  · intro h
    obtain ⟨behind, hdigits, h⟩ := Option.bind_eq_some_iff.1 h
    obtain ⟨ended, hends, h⟩ := Option.bind_eq_some_iff.1 h
    cases h
    exact ⟨behind, hdigits, rfl, (Option.guard_eq_some' ended).1 hends⟩
  · rintro ⟨behind, hdigits, rfl, hends⟩
    simp [skipWhole, hdigits, hends]

/-- It stands in front of what is left, also if a token ends there instead. -/
theorem skipWhole_append (hy : endsHere y = true) {text : List Char} (h : skipWhole (text ++ x) = some x) :
    skipWhole (text ++ y) = some y := by
  obtain ⟨behind, hdigits, hsuffix, hx⟩ := skipWhole_eq_some_iff.1 h
  obtain ⟨rest, rfl⟩ := exists_append_of_skipSuffix hsuffix
  rw [splitBase_append hx] at hdigits
  rw [skipSuffix_append hx, List.append_left_eq_self] at hsuffix
  refine skipWhole_eq_some_iff.2 ⟨rest ++ y, ?_, ?_, hy⟩
  · rw [splitBase_append hy]
    exact skipDigits_append hx hy hdigits
  · rw [skipSuffix_append hy, hsuffix, List.nil_append]

/-! ## Numbers of either kind -/

/-- The digits of a whole number are characters of identifiers, -/
theorem exists_digits_of_skipDigits {base : Nat} {found : Bool} {text rest : List Char}
    (h : skipDigits base found (text ++ x) = some (rest ++ x)) :
    ∃ digits, text = digits ++ rest ∧ ∀ c ∈ digits, isIdentifierContinue c = true := by
  induction text generalizing found with
  | nil =>
    have hlength := (suffix_of_skipDigits h).length_le
    rw [List.nil_append, List.length_append] at hlength
    obtain rfl := List.eq_nil_of_length_eq_zero (by omega : rest.length = 0)
    exact ⟨[], rfl, fun c hm => absurd hm List.not_mem_nil⟩
  | cons c text ih =>
    rw [List.cons_append, skipDigits] at h
    split at h
    · rename_i hgap
      split at h
      · cases h
      · obtain ⟨digits, rfl, hdigits⟩ := ih h
        have hc : isIdentifierContinue c = true := isIdentifierContinue_of_isDigitOrGap (by simp [isDigitOrGap, hgap])
        exact ⟨c :: digits, rfl, List.forall_mem_cons.2 ⟨hc, hdigits⟩⟩
    · split at h
      · rename_i hdigit
        obtain ⟨digits, rfl, hdigits⟩ := ih h
        have hc := isIdentifierContinue_of_digitValue? hdigit
        exact ⟨c :: digits, rfl, List.forall_mem_cons.2 ⟨hc, hdigits⟩⟩
      · split at h
        · cases h
        · rw [Option.some.injEq, ← List.cons_append] at h
          exact ⟨[], List.append_cancel_right h, fun c hm => absurd hm List.not_mem_nil⟩

/-- so are those of a suffix, -/
theorem isIdentifierContinue_of_skipSuffix {text : List Char} (h : skipSuffix text = []) :
    ∀ c ∈ text, isIdentifierContinue c = true := by
  cases text with
  | nil => exact fun c hm => absurd hm List.not_mem_nil
  | cons c text =>
    rw [skipSuffix] at h
    split at h
    · rename_i hc
      exact List.forall_mem_cons.2 ⟨isIdentifierContinue_of_isIdentifierStart hc, List.dropWhile_eq_nil_iff.1 h⟩
    · cases h

/-- and those of the mark of a base, -/
theorem exists_mark_of_splitBase (text : List Char) :
    ∃ mark, text = mark ++ (splitBase text).2 ∧ ∀ c ∈ mark, isIdentifierContinue c = true := by
  unfold splitBase
  split
  · exact ⟨['0', 'x'], rfl, List.all_iff_forall_prop.1 (by decide +kernel)⟩
  · exact ⟨['0', 'o'], rfl, List.all_iff_forall_prop.1 (by decide +kernel)⟩
  · exact ⟨['0', 'b'], rfl, List.all_iff_forall_prop.1 (by decide +kernel)⟩
  · exact ⟨[], rfl, fun c hm => absurd hm List.not_mem_nil⟩

/-- and so all characters of a whole number. -/
theorem isIdentifierContinue_of_skipWhole {text : List Char} (h : skipWhole (text ++ x) = some x) :
    ∀ c ∈ text, isIdentifierContinue c = true := by
  obtain ⟨behind, hdigits, hsuffix, hx⟩ := skipWhole_eq_some_iff.1 h
  obtain ⟨rest, rfl⟩ := exists_append_of_skipSuffix hsuffix
  rw [splitBase_append hx] at hdigits
  rw [skipSuffix_append hx, List.append_left_eq_self] at hsuffix
  obtain ⟨mark, htext, hmark⟩ := exists_mark_of_splitBase text
  obtain ⟨digits, hbody, hall⟩ := exists_digits_of_skipDigits hdigits
  rw [htext, hbody]
  exact List.forall_mem_append.2 ⟨hmark, List.forall_mem_append.2 ⟨hall, isIdentifierContinue_of_skipSuffix hsuffix⟩⟩

/-- Characters of identifiers that are a number with an exponent in front of where every token ends are one where no
identifier goes on. -/
theorem isSome_skipFractional_append (hx : endsHere x = true) (hy : EndsToken y) {text : List Char}
    (htext : ∀ c ∈ text, isIdentifierContinue c = true) (h : (skipFractional (text ++ y)).isSome = true) :
    (skipFractional (text ++ x)).isSome = true := by
  obtain ⟨left, h⟩ := Option.isSome_iff_exists.1 h
  cases text with
  | nil =>
    cases y with
    | nil => cases h
    | cons c y =>
      have hall : ∀ c ∈ tokenEnds, c.isDigit = false := List.all_iff_forall_prop.1 (by decide)
      have hdigit := (skipFractional_cons_eq_some_iff.1 h).1
      rw [hall c (hy c rfl)] at hdigit
      cases hdigit
  | cons c text =>
    have hy' := endsHere_of_endsToken hy
    rw [List.cons_append, skipFractional_cons_eq_some_iff, dropDigits_append hy'] at h
    obtain ⟨hdigit, behind, hfraction, rfl, hends⟩ := h
    cases hbehind : text.dropWhile isDigitOrGap with
    | nil =>
      rw [hbehind, List.nil_append, skipFraction_of_endsToken hy] at hfraction
      cases hfraction
    | cons e rest =>
      have hdot : e ≠ '.' := by
        rintro rfl
        have hm : '.' ∈ text := (List.dropWhile_suffix isDigitOrGap).subset (hbehind ▸ List.mem_cons_self)
        have hcontinue := htext '.' (List.mem_cons_of_mem c hm)
        revert hcontinue
        decide +kernel
      rw [hbehind, List.cons_append, skipFraction_of_ne_dot hdot] at hfraction
      split at hfraction
      · rename_i he
        obtain ⟨after, rfl⟩ := exists_append_of_skipExponent hy hfraction
        have hexponent := skipExponent_append hy' hx hfraction
        rw [skipSuffix_append hy'] at hends
        refine Option.isSome_iff_exists.2 ⟨skipSuffix after ++ x, ?_⟩
        rw [List.cons_append, skipFractional_cons_eq_some_iff, dropDigits_append hx, hbehind, List.cons_append,
          skipFraction_of_ne_dot hdot, if_pos he]
        refine ⟨hdigit, after ++ x, hexponent, skipSuffix_append hx after, ?_⟩
        cases hafter : skipSuffix after with
        | nil => exact hx
        | cons d after => rwa [hafter] at hends
      · cases hfraction

/-- A number stands in front of what is left, also if a token ends there instead. -/
theorem skip_append (hy : EndsToken y) {text : List Char} (h : skip (text ++ x) = some x) : skip (text ++ y) = some y := by
  rcases (Option.orElse_eq_some _ _ _).1 h with h | ⟨hnone, h⟩
  · exact (Option.orElse_eq_some _ _ _).2 (Or.inl (skipFractional_append hy h))
  · obtain ⟨behind, -, -, hx⟩ := skipWhole_eq_some_iff.1 h
    refine (Option.orElse_eq_some _ _ _).2 (Or.inr ⟨?_, skipWhole_append (endsHere_of_endsToken hy) h⟩)
    cases hfractional : skipFractional (text ++ y) with
    | none => rfl
    | some left =>
      have hsome := isSome_skipFractional_append hx hy (isIdentifierContinue_of_skipWhole h) (by rw [hfractional]; rfl)
      rw [hnone] at hsome
      cases hsome

/-! ## Digits alone -/

/-- A decimal digit has a value in base ten. -/
theorem isSome_digitValue?_of_isDigit {c : Char} (h : c.isDigit = true) : (digitValue? 10 c).isSome = true := by
  obtain ⟨-, hhigh⟩ := Char.isDigit_iff_toNat.1 h
  have hbounds : '0'.toNat = 48 ∧ '9'.toNat = 57 := ⟨rfl, rfl⟩
  have hvalue : c.toNat - 48 < 10 := by omega
  simp [digitValue?, h, hvalue]

/-- Digits are taken to the end, and there is one at least. -/
theorem skipDigits_of_isDigit {text : List Char} (h : ∀ c ∈ text, c.isDigit = true) {found : Bool}
    (hfound : found = true ∨ text ≠ []) : skipDigits 10 found text = some [] := by
  induction text generalizing found with
  | nil =>
    rw [skipDigits, if_pos (hfound.resolve_right fun hne => hne rfl)]
  | cons c text ih =>
    obtain ⟨hc, htext⟩ := List.forall_mem_cons.1 h
    have hgap : c ≠ '_' := by
      rintro rfl
      cases hc
    rw [skipDigits, if_neg hgap, if_pos (isSome_digitValue?_of_isDigit hc), ih htext (Or.inl rfl)]

/-- They mark no base. -/
theorem splitBase_of_isDigit {text : List Char} (h : ∀ c ∈ text, c.isDigit = true) : splitBase text = (10, text) := by
  unfold splitBase
  split
  case h_4 => rfl
  all_goals cases h _ (List.mem_cons_of_mem _ List.mem_cons_self)

/-- So they are a whole number. -/
theorem skip_of_isDigit {text : List Char} (h : ∀ c ∈ text, c.isDigit = true) (hne : text ≠ []) : skip text = some [] := by
  have hfractional : skipFractional text = none := by
    cases text with
    | nil => rfl
    | cons c text =>
      have hrest : text.dropWhile isDigitOrGap = [] :=
        List.dropWhile_eq_nil_iff.2 fun d hd => by simp [isDigitOrGap, h d (List.mem_cons_of_mem c hd)]
      rw [skipFractional, hrest]
      simp [skipFraction]
  refine (Option.orElse_eq_some _ _ _).2 (Or.inr ⟨hfractional, skipWhole_eq_some_iff.2 ⟨[], ?_, rfl, rfl⟩⟩)
  rw [splitBase_of_isDigit h]
  exact skipDigits_of_isDigit h (Or.inr hne)

end Number

end PrivateLog
