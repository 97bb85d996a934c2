import PrivateLog.Proofs.Token.Printing

/-!
# Blanks at the ends of written tokens

What is written for tokens neither begins nor ends with a blank (`Token.isTight_writeAll`), so nothing of it is cut off where
blanks at the ends of a text do not count. The tokens in question are literals: one between quotes ends with a quote, a `#` or
its suffix (`StringLiteral.ends_of_skip`), and a number with a digit, a dot or its suffix (`Number.ends_of_skipFractional`).
-/

namespace PrivateLog

open Text

namespace Text

/-- A text that begins and ends with characters that are not blank. -/
structure IsTight (text : List Char) : Prop where
  first : ∃ c ∈ text.head?, isBlank c = false
  last : ∃ c ∈ text.getLast?, isBlank c = false

/-- There is something in it. -/
theorem IsTight.ne_nil {text : List Char} (h : IsTight text) : text ≠ [] := by
  rintro rfl
  obtain ⟨c, hc, -⟩ := h.first
  cases hc

/-- Nothing of it is cut off. -/
theorem IsTight.trim_eq {text : List Char} (h : IsTight text) : trim text = text := by
  obtain ⟨c, hfirst, hc⟩ := h.first
  obtain ⟨d, hlast, hd⟩ := h.last
  obtain ⟨rest, rfl⟩ := List.head?_eq_some_iff.1 hfirst
  obtain ⟨front, hfront⟩ := List.getLast?_eq_some_iff.1 hlast
  rw [trim, trimStart_cons hc, hfront, trimEnd_append_cons front [] hd]
  rfl

/-- Only the first and the last character matter. -/
theorem isTight_append {a b : List Char} {c d : Char} (ha : a.head? = some c) (hc : isBlank c = false)
    (hb : b.getLast? = some d) (hd : isBlank d = false) (between : List Char) : IsTight (a ++ between ++ b) := by
  refine ⟨⟨c, ?_, hc⟩, ⟨d, ?_, hd⟩⟩
  · rw [List.append_assoc, List.head?_append, ha, Option.some_or]
    rfl
  · rw [List.getLast?_append, hb, Option.some_or]
    rfl

/-- Two such texts with anything between them are such a text. -/
theorem IsTight.append {a b : List Char} (ha : IsTight a) (hb : IsTight b) (between : List Char) :
    IsTight (a ++ between ++ b) := by
  obtain ⟨c, hfirst, hc⟩ := ha.first
  obtain ⟨d, hlast, hd⟩ := hb.last
  exact isTight_append hfirst hc hlast hd between

/-- A text without blanks is such a text. -/
theorem isTight_of_forall {text : List Char} (hne : text ≠ []) (h : ∀ c ∈ text, isBlank c = false) : IsTight text :=
  ⟨⟨text.head hne, List.head?_eq_some_head hne, h _ (List.head_mem hne)⟩,
    ⟨text.getLast hne, List.getLast?_eq_some_getLast hne, h _ (List.getLast_mem hne)⟩⟩

/-- What is left of a text begins behind a character that is not blank. -/
def Ends (text rest : List Char) : Prop :=
  ∃ c, isBlank c = false ∧ c :: rest <:+ text

section
variable {a b : List Char}

/-- Behind a first character that is not blank the text goes on. -/
theorem ends_cons {c : Char} (hc : isBlank c = false) (text : List Char) : Ends (c :: text) text :=
  ⟨c, hc, List.suffix_rfl⟩

/-- One more such character may go, -/
theorem Ends.step {c : Char} (h : Ends a (c :: b)) (hc : isBlank c = false) : Ends a b := by
  obtain ⟨d, -, hsuffix⟩ := h
  exact ⟨c, hc, (List.suffix_cons d _).trans hsuffix⟩

/-- and as many as pass a test that no blank passes. -/
theorem Ends.dropWhile {test : Char → Bool} (h : Ends a b) (htest : ∀ c, test c = true → isBlank c = false) :
    Ends a (b.dropWhile test) := by
  induction b with
  | nil => exact h
  | cons c b ih =>
    cases hc : test c with
    | true =>
      rw [List.dropWhile_cons_of_pos hc]
      exact ih (h.step (htest c hc))
    | false => rwa [List.dropWhile_cons_of_neg (by simp [hc])]

/-- More may stand in front. -/
theorem Ends.of_suffix {text rest : List Char} (h : Ends b rest) (hsuffix : b <:+ text) : Ends text rest := by
  obtain ⟨c, hc, hrest⟩ := h
  exact ⟨c, hc, hrest.trans hsuffix⟩

/-- If nothing is left, the last character is not blank. -/
theorem Ends.last (h : Ends a []) : ∃ c ∈ a.getLast?, isBlank c = false := by
  obtain ⟨c, hc, front, rfl⟩ := h
  exact ⟨c, by simp, hc⟩

end

/-- Characters of identifiers are not blank. -/
theorem not_isBlank_of_isIdentifierContinue {c : Char} (h : isIdentifierContinue c = true) : isBlank c = false := by
  refine Bool.eq_false_iff.2 fun hblank => ?_
  rw [Lexeme.not_isIdentifierContinue_of_isGap (Lexeme.isGap_of_isBlank hblank)] at h
  cases h

end Text

/-! ## Numbers -/

namespace Number

/-- A digit is no blank. -/
theorem not_isBlank_of_isDigit {c : Char} (h : c.isDigit = true) : isBlank c = false :=
  not_isBlank_of_isIdentifierContinue (isIdentifierContinue_of_isDigitOrGap (by rw [isDigitOrGap, h, Bool.true_or]))

variable {a b rest : List Char}

/-- The digits behind the first one may go, -/
theorem Ends.dropDigits (h : Ends a b) : Ends a (b.dropWhile isDigitOrGap) :=
  h.dropWhile fun _ hc => not_isBlank_of_isIdentifierContinue (isIdentifierContinue_of_isDigitOrGap hc)

/-- a suffix, -/
theorem Ends.skipSuffix (h : Ends a b) : Ends a (skipSuffix b) := by
  cases b with
  | nil => exact h
  | cons c b =>
    rw [Number.skipSuffix]
    split
    · rename_i hc
      have hstep := h.step (not_isBlank_of_isIdentifierContinue (isIdentifierContinue_of_isIdentifierStart hc))
      exact hstep.dropWhile fun _ => not_isBlank_of_isIdentifierContinue
    · exact h

/-- the digits of an exponent, -/
theorem Ends.skipExponent (h : Ends a b) {signed : Bool} (hskip : skipExponent signed b = some rest) : Ends a rest := by
  induction b generalizing signed with
  | nil => cases hskip
  | cons c b ih =>
    rw [Number.skipExponent] at hskip
    split_ifs at hskip with hsign hsigned hdigit hgap
    · refine ih (h.step ?_) hskip
      rcases hsign with rfl | rfl <;> decide
    · cases hskip
      exact Ends.dropDigits (h.step (not_isBlank_of_isDigit hdigit))
    · subst hgap
      exact ih (h.step (by decide)) hskip

/-- and a fraction with an exponent. -/
theorem Ends.skipFraction (h : Ends a b) (hskip : skipFraction b = some rest) : Ends a rest := by
  have hexponent : ∀ {b}, Ends a b → Ends a (skipOptionalExponent b) := by
    intro b h
    cases b with
    | nil => exact h
    | cons e b =>
      rw [skipOptionalExponent]
      split_ifs with he
      · cases hskip : Number.skipExponent false b with
        | none => exact h
        | some rest =>
          refine Ends.skipExponent (h.step ?_) hskip
          rcases he with rfl | rfl <;> decide
      · exact h
  cases b with
  | nil => cases hskip
  | cons e b =>
    by_cases hdot : e = '.'
    · subst hdot
      rw [skipFraction_dot] at hskip
      split_ifs at hskip
      cases hskip
      exact hexponent (Ends.dropDigits (h.step (by decide)))
    · rw [skipFraction_of_ne_dot hdot] at hskip
      split_ifs at hskip with he
      refine Ends.skipExponent (h.step ?_) hskip
      rcases he with rfl | rfl <;> decide

/-- A number with a fraction or an exponent does not end with a blank. -/
theorem ends_of_skipFractional {text : List Char} (h : skipFractional text = some rest) : Ends text rest := by
  cases text with
  | nil => cases h
  | cons c text =>
    obtain ⟨hdigit, behind, hfraction, rfl, -⟩ := skipFractional_cons_eq_some_iff.1 h
    have hfirst := ends_cons (not_isBlank_of_isDigit hdigit) text
    exact Ends.skipSuffix (Ends.skipFraction (Ends.dropDigits hfirst) hfraction)

end Number

/-! ## Literals between quotes -/

namespace StringLiteral

variable {alphabet : Alphabet}

/-- What stands behind the indentation of a continued line is the end of it. -/
theorem suffix_of_skipIndent {text rest : List Char} (h : skipIndent text = some rest) : rest <:+ text := by
  fun_induction skipIndent text with
  | case1 text ih | case2 text ih | case3 text ih => exact (ih h).trans (List.suffix_cons _ _)
  | case4 text ih => exact (ih h).trans ((List.suffix_cons _ _).trans (List.suffix_cons _ _))
  | case5 | case6 => cases h
  | case7 =>
    cases h
    exact List.suffix_rfl

/-- A text ends with its quote, -/
theorem ends_of_readQuotedWithin {fuel : Nat} {text values rest : List Char}
    (h : readQuotedWithin alphabet fuel text = some (values, rest)) : Ends text rest := by
  induction fuel generalizing text values with
  | zero => cases h
  | succ fuel ih =>
    have hcontinued : ∀ {behind}, (skipIndent behind >>= readQuotedWithin alphabet fuel) = some (values, rest) →
        Ends behind rest := fun h => by
      obtain ⟨after, hindent, h⟩ := Option.bind_eq_some_iff.1 h
      exact (ih h).of_suffix (suffix_of_skipIndent hindent)
    cases text with
    | nil => cases h
    | cons c text =>
      refine (?_ : c = '"' ∧ text = rest ∨ Ends text rest).elim ?_ fun hends => hends.of_suffix (List.suffix_cons c text)
      · unfold readQuotedWithin at h
        split at h
        · rename_i hquote
          cases h
          exact Or.inl ⟨hquote, rfl⟩
        · right
          split at h
          · split at h
            · exact (hcontinued h).of_suffix (List.suffix_cons _ _)
            · exact (hcontinued h).of_suffix (List.suffix_append ['\r', '\n'] _)
            · obtain ⟨⟨value, behind⟩, hescape, h⟩ := Option.bind_eq_some_iff.1 h
              obtain ⟨⟨values', after⟩, hrest, h⟩ := Option.bind_eq_some_iff.1 h
              cases h
              obtain ⟨used, rfl, -⟩ := exists_used_of_readEscape hescape
              exact (ih hrest).of_suffix (List.suffix_append used _)
          · split at h
            · split at h
              · obtain ⟨⟨values', after⟩, hrest, h⟩ := Option.bind_eq_some_iff.1 h
                cases h
                exact (ih hrest).of_suffix (List.suffix_cons _ _)
              · cases h
            · split at h
              · obtain ⟨⟨values', after⟩, hrest, h⟩ := Option.bind_eq_some_iff.1 h
                cases h
                exact ih hrest
              · cases h
      · rintro ⟨rfl, rfl⟩
        exact ends_cons (by decide) text

/-- a raw text with the last of its marks, -/
theorem ends_of_readRawBody {hashes : Nat} {text values rest : List Char}
    (h : readRawBody alphabet hashes text = some (values, rest)) : Ends text rest := by
  fun_induction readRawBody alphabet hashes text generalizing values with
  | case1 => cases h
  | case2 text ih =>
    obtain ⟨⟨values', after⟩, hrest, h⟩ := Option.bind_eq_some_iff.1 h
    cases h
    exact (ih hrest).of_suffix (List.suffix_append ['\r', '\n'] _)
  | case3 => cases h
  | case4 c text _ _ hend =>
    cases h
    rw [Bool.and_eq_true, decide_eq_true_eq] at hend
    obtain ⟨rfl, hend⟩ := hend
    obtain ⟨behind, rfl⟩ := List.isPrefixOf_iff_prefix.1 hend
    have hmarks : ∀ n, Ends ('"' :: (List.replicate n '#' ++ behind)) behind := by
      intro n
      cases n with
      | zero => exact ends_cons (by decide) behind
      | succ n =>
        refine ⟨'#', by decide, ?_⟩
        rw [List.replicate_succ', List.append_assoc]
        exact (List.suffix_append _ _).trans (List.suffix_cons _ _)
    simpa using hmarks hashes
  | case5 c text _ _ _ _ ih =>
    obtain ⟨⟨values', after⟩, hrest, h⟩ := Option.bind_eq_some_iff.1 h
    cases h
    exact (ih hrest).of_suffix (List.suffix_cons _ _)
  | case6 => cases h

/-- and a single character with its quote. -/
theorem ends_of_readSingle {c : Char} {text rest : List Char} (h : readSingle alphabet text = some (c, rest)) :
    Ends text rest := by
  have hquote : ∀ rest, Ends ('\'' :: rest) rest := ends_cons (by decide)
  unfold readSingle at h
  simp only at h
  split at h
  · obtain ⟨⟨value, behind⟩, hescape, h⟩ := Option.bind_eq_some_iff.1 h
    simp only at h
    split at h
    · cases h
      obtain ⟨used, rfl, -⟩ := exists_used_of_readEscape hescape
      exact (hquote rest).of_suffix ((List.suffix_append used _).trans (List.suffix_cons _ _))
    · cases h
  · split at h
    · simp only [Option.bind_eq_bind, Option.bind_some] at h
      split at h
      · cases h
        exact (hquote rest).of_suffix (List.suffix_cons _ _)
      · cases h
    · cases h
  · cases h

/-- No literal between quotes ends with a blank. -/
theorem ends_of_skip {text rest : List Char} (h : skip text = some rest) : Ends text rest := by
  have hraw : ∀ {alphabet text values}, readRaw alphabet text = some (values, rest) → Ends text rest := by
    intro alphabet text values h
    obtain ⟨hashes, body, rfl, -, hbody⟩ := exists_body_of_readRaw h
    exact (ends_of_readRawBody hbody).of_suffix ((List.suffix_cons _ _).trans (List.suffix_append _ _))
  unfold skip at h
  split at h
  case h_9 => cases h
  all_goals obtain ⟨⟨value, behind⟩, hread, rfl⟩ := Option.map_eq_some_iff.1 h
  case h_1 => exact (ends_of_readQuotedWithin hread).of_suffix (List.suffix_cons _ _)
  case h_2 => exact (hraw hread).of_suffix (List.suffix_cons _ _)
  case h_3 => exact (ends_of_readQuotedWithin hread).of_suffix (List.suffix_append ['b', '"'] _)
  case h_4 => exact (hraw hread).of_suffix (List.suffix_append ['b', 'r'] _)
  case h_5 => exact (ends_of_readQuotedWithin hread).of_suffix (List.suffix_append ['c', '"'] _)
  case h_6 => exact (hraw hread).of_suffix (List.suffix_append ['c', 'r'] _)
  case h_7 => exact (ends_of_readSingle hread).of_suffix (List.suffix_append ['b', '\''] _)
  case h_8 => exact (ends_of_readSingle hread).of_suffix (List.suffix_cons _ _)

end StringLiteral

/-! ## Tokens -/

namespace Lexeme

/-- A literal begins and ends with characters that are not blank. -/
theorem isTight_of_skipLiteral {text : List Char} (h : skipLiteral text = some []) : IsTight text := by
  have hne : text ≠ [] := by
    rintro rfl
    cases h
  refine ⟨?_, ?_⟩
  · obtain ⟨c, text, rfl⟩ := List.exists_cons_of_ne_nil hne
    refine ⟨c, rfl, ?_⟩
    rcases head_of_skipLiteral h with hm | hdigit
    · have hall : ∀ c ∈ ['"', '\'', 'r', 'b', 'c'], isBlank c = false :=
        List.all_iff_forall_prop.1 (by decide)
      exact hall c hm
    · exact Number.not_isBlank_of_isDigit hdigit
  · unfold skipLiteral at h
    split at h
    · rename_i behind hskip
      have hends := Number.Ends.skipSuffix (StringLiteral.ends_of_skip hskip)
      rw [Option.some.inj h] at hends
      exact hends.last
    · rcases (Option.orElse_eq_some _ _ _).1 h with h | ⟨-, h⟩
      · exact (Number.ends_of_skipFractional h).last
      · have hall := Number.isIdentifierContinue_of_skipWhole (x := []) (by rwa [List.append_nil])
        exact (isTight_of_forall hne fun c hm => not_isBlank_of_isIdentifierContinue (hall c hm)).last

/-- A punctuation character is not blank. -/
theorem not_isBlank_of_isPunctuation {c : Char} (h : isPunctuation c = true) : isBlank c = false := by
  have hall : ∀ c ∈ "~!@#$%^&*-=+|;:,<.>/?'".toList, isBlank c = false := List.all_iff_forall_prop.1 (by decide)
  exact hall c (of_decide_eq_true h)

/-- A token without parts is written without blanks at its ends. -/
theorem Stands.isTight {more : List Lexeme} {token : Token} (h : Stands more (.leaf token)) : IsTight token.write := by
  have hsingle : ∀ {c}, isPunctuation c = true → IsTight [c] := fun hc =>
    isTight_of_forall (List.cons_ne_nil _ _) (by simpa using not_isBlank_of_isPunctuation hc)
  cases h with
  | @ident name hname =>
    refine isTight_of_forall (fun hnil => ?_) (not_isBlank_of_splitIdentifier hname)
    rw [Token.write] at hnil
    rw [hnil] at hname
    cases hname
  | literal hliteral =>
    have hall := skipLiteral_append endsToken_nil hliteral
    rw [List.append_nil] at hall
    exact isTight_of_skipLiteral hall
  | alone hc => exact hsingle hc
  | joint _ hjoins => exact hsingle ((startsPunctuation_cons _ _).1 hjoins.1).1

end Lexeme

namespace Token

/-- A group is written without blanks at its ends. -/
theorem isTight_group (delimiter : Delimiter) (body : List Token) : IsTight (write (.group delimiter body)) := by
  rw [write]
  cases delimiter with
  | parenthesis => exact isTight_append rfl (by decide) rfl (by decide) (writeAll body)
  | bracket => exact isTight_append rfl (by decide) rfl (by decide) (writeAll body)
  | brace => cases body.isEmpty <;> exact isTight_append rfl (by decide) rfl (by decide) (writeAll body)

/-- Tokens are written without blanks at their ends. -/
theorem isTight_writeAll {tokens : List Token} (h : Legible tokens) (hne : tokens ≠ []) : IsTight (writeAll tokens) := by
  have hcons : ∀ {token tokens}, IsTight (write token) → (tokens ≠ [] → IsTight (writeAll tokens)) →
      IsTight (writeAll (token :: tokens)) := by
    intro token tokens htoken htokens
    cases tokens with
    | nil => rwa [writeAll_singleton]
    | cons next tokens =>
      rw [writeAll_cons_cons]
      exact htoken.append (htokens (List.cons_ne_nil _ _)) _
  induction tokens with
  | nil => exact absurd rfl hne
  | cons token tokens ih =>
    cases token with
    | group delimiter body => exact hcons (isTight_group delimiter body) (ih (legible_group.1 h).2)
    | ident | literal | punct => exact hcons h.1.isTight (ih h.2)

end Token

end PrivateLog
