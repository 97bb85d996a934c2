import PrivateLog.Proofs.Expression.Colon
import PrivateLog.Proofs.Template.Grammar
import PrivateLog.Proofs.Token.Scanning

/-!
# Expressions have no labels

A body that begins with a label is no expression (`not_labelled_of_parse`). Whatever the word of the label is, it is scanned
as one identifier or not at all (`scans_of_label`), the blanks behind it yield nothing, and the colon stays single: so the
body is read as an identifier and a single colon (`exists_of_read?_label`), and these begin no expression.
-/

namespace PrivateLog.Template

open Text Lexeme

/-! ## The characters of labels -/

/-- Whether a character may stand in a label. -/
def isLabelCharacter (c : Char) : Bool :=
  c == '_' || isAlphanumeric c

/-- A character between tokens stands in no label. -/
theorem not_isLabelCharacter_of_isGap {c : Char} (h : isGap c = true) : isLabelCharacter c = false := by
  have hall : ∀ code ∈ gapCodes, isLabelCharacter (Char.ofNat code) = false := by
    decide +kernel
  have hc := hall _ (toNat_mem_gapCodes h)
  rwa [Char.ofNat_toNat] at hc

/-- A label is made of its characters. -/
theorem isLabelCharacter_of_isLabel {word : List Char} (h : isLabel word = true) : ∀ c ∈ word, isLabelCharacter c = true := by
  cases word with
  | nil => exact fun c hc => absurd hc List.not_mem_nil
  | cons c word =>
    rw [isLabel, Bool.and_eq_true, List.all_eq_true] at h
    refine List.forall_mem_cons.2 ⟨?_, h.2⟩
    rw [isLabelCharacter, isAlphanumeric, ← Bool.or_assoc, h.1, Bool.true_or]

/-- A digit goes on with an identifier and is no letter. -/
theorem isIdentifierContinue_of_isDigit {c : Char} (h : c.isDigit = true) :
    isIdentifierContinue c = true ∧ isAlphabetic c = false ∧ c ≠ '_' := by
  have hall : ∀ n < 58, 48 ≤ n →
      isIdentifierContinue (Char.ofNat n) = true ∧ isAlphabetic (Char.ofNat n) = false ∧ Char.ofNat n ≠ '_' := by
    decide +kernel
  obtain ⟨hlow, hhigh⟩ := Char.isDigit_iff_toNat.1 h
  have hc := hall c.toNat (Nat.lt_succ_of_le hhigh) hlow
  rwa [Char.ofNat_toNat] at hc

/-- A label does not begin with one. -/
theorem not_isDigit_of_isLabel {c : Char} {word : List Char} (h : isLabel (c :: word) = true) : c.isDigit = false := by
  cases hd : c.isDigit with
  | false => rfl
  | true =>
    obtain ⟨-, hletter, hne⟩ := isIdentifierContinue_of_isDigit hd
    simp [isLabel, hletter, hne] at h

/-- A text in which no quote and no `#` follows the characters of a label that it begins with. -/
def isUnquoted : List Char → Bool
  | [] => true
  | c :: text => c ∉ ['"', '#', '\''] && (!isLabelCharacter c || isUnquoted text)

/-- Behind a character of a label it goes on in the same way. -/
theorem isUnquoted_tail {c : Char} {text : List Char} (hc : isLabelCharacter c = true) (h : isUnquoted (c :: text) = true) :
    isUnquoted text = true := by
  simpa [isUnquoted, hc] using (Bool.and_eq_true_iff.1 h).2

/-- Characters of a label may stand in front. -/
theorem isUnquoted_append {word text : List Char} (hword : ∀ c ∈ word, isLabelCharacter c = true)
    (h : isUnquoted text = true) : isUnquoted (word ++ text) = true := by
  induction word with
  | nil => exact h
  | cons c word ih =>
    obtain ⟨hc, hword⟩ := List.forall_mem_cons.1 hword
    have hquote : c ∉ ['"', '#', '\''] := not_mem_of_all (by decide) hc
    rw [List.cons_append, isUnquoted, ih hword, Bool.or_true, Bool.and_true]
    exact decide_eq_true hquote

/-! ## Scanning a label -/

/-- No raw text begins there. -/
theorem readRaw_of_isUnquoted {text : List Char} (h : isUnquoted text = true) (alphabet : StringLiteral.Alphabet) :
    StringLiteral.readRaw alphabet text = none := by
  cases text with
  | nil => rfl
  | cons c text =>
    rw [isUnquoted, Bool.and_eq_true] at h
    have hc := of_decide_eq_true h.1
    simp only [List.mem_cons, not_or] at hc
    obtain ⟨hquote, hhash, -⟩ := hc
    simp [StringLiteral.readRaw, hhash, hquote]

/-- Nor any other literal between quotes. -/
theorem skip_of_isUnquoted {text : List Char} (h : isUnquoted text = true) : StringLiteral.skip text = none := by
  have hr : isLabelCharacter 'r' = true := by decide
  have hb : isLabelCharacter 'b' = true := by decide
  have hc : isLabelCharacter 'c' = true := by decide
  unfold StringLiteral.skip
  split
  · cases h
  · rw [readRaw_of_isUnquoted (isUnquoted_tail hr h)]
    rfl
  · cases isUnquoted_tail hb h
  · rw [readRaw_of_isUnquoted (isUnquoted_tail hr (isUnquoted_tail hb h))]
    rfl
  · cases isUnquoted_tail hc h
  · rw [readRaw_of_isUnquoted (isUnquoted_tail hr (isUnquoted_tail hc h))]
    rfl
  · cases isUnquoted_tail hb h
  · cases h
  · rfl

/-- At a character of a label there is no bracket, gap or comment. -/
theorem piece_of_isLabelCharacter {c : Char} (h : isLabelCharacter c = true) (text : List Char) :
    piece (c :: text) = (fun found => ([.leaf found.1], found.2)) <$> leaf? (c :: text) := by
  have hbracket : c ∉ delimiters := not_mem_of_all (by decide) h
  have hgap : isGap c = false := by
    cases hg : isGap c with
    | false => rfl
    | true =>
      rw [not_isLabelCharacter_of_isGap hg] at h
      cases h
  rw [piece_cons hbracket, hgap]
  rfl

/-- What begins with a character of a label that is no digit is an identifier. -/
theorem leaf?_of_isUnquoted {c : Char} {text rest : List Char} {token : Token} (hc : isLabelCharacter c = true)
    (hdigit : c.isDigit = false) (hquote : isUnquoted (c :: text) = true) (h : leaf? (c :: text) = some (token, rest)) :
    isIdentifierStart c = true ∧ (∃ name, token = .ident name) ∧ rest = text.dropWhile isIdentifierContinue := by
  have hliteral : skipLiteral (c :: text) = none := by
    rw [skipLiteral, skip_of_isUnquoted hquote, skip_of_not_isDigit hdigit]
  have hpunctuation : startsPunctuation (c :: text) = false := by
    cases hp : isPunctuation c with
    | true => exact absurd (of_decide_eq_true hp) (not_mem_of_all (by decide) hc)
    | false =>
      unfold startsPunctuation
      split
      · rfl
      · rfl
      · rename_i heq
        cases heq
        exact hp
      · rfl
  have hraw : splitIdentifier (c :: text) = (fun found => (String.ofList found.1, found.2)) <$> splitWord (c :: text) := by
    unfold splitIdentifier
    split
    · rename_i heq
      cases heq
      cases isUnquoted_tail hc hquote
    · cases splitWord (c :: text) <;> rfl
  -- If the beginning belongs to a literal that does not go on as one, nothing is found; there is no need to exclude it.
  unfold leaf? at h
  simp only [hliteral, hpunctuation, Bool.false_eq_true, if_false] at h
  split at h
  · cases h
  · rw [hraw, splitWord] at h
    cases hs : isIdentifierStart c with
    | false =>
      rw [hs] at h
      cases h
    | true =>
      rw [hs] at h
      cases h
      exact ⟨rfl, ⟨_, rfl⟩, rfl⟩

/-- A text is scanned from a character of a label on only if that may go on with an identifier. -/
theorem isIdentifierContinue_of_scans {c : Char} {text : List Char} {found : List Lexeme} (hc : isLabelCharacter c = true)
    (hquote : isUnquoted (c :: text) = true) (h : Scans (c :: text) found) : isIdentifierContinue c = true := by
  cases hdigit : c.isDigit with
  | true => exact (isIdentifierContinue_of_isDigit hdigit).1
  | false =>
    obtain ⟨lexemes, rest, hpiece⟩ := h.exists_piece (List.cons_ne_nil c text)
    rw [piece_of_isLabelCharacter hc] at hpiece
    obtain ⟨⟨token, behind⟩, hleaf, -⟩ := Option.map_eq_some_iff.1 hpiece
    exact isIdentifierContinue_of_isIdentifierStart (leaf?_of_isUnquoted hc hdigit hquote hleaf).1

/-- The end of a label is where its identifier ends. -/
theorem dropWhile_of_scans {word text : List Char} {found : List Lexeme} (hword : ∀ c ∈ word, isLabelCharacter c = true)
    (hquote : isUnquoted text = true) (hend : text.head?.all (!isIdentifierContinue ·) = true)
    (h : Scans ((word ++ text).dropWhile isIdentifierContinue) found) :
    (word ++ text).dropWhile isIdentifierContinue = text := by
  induction word with
  | nil =>
    cases text with
    | nil => rfl
    | cons c text =>
      have hc : isIdentifierContinue c = false := by simpa using hend
      rw [List.nil_append, List.dropWhile_cons_of_neg (by simp [hc])]
  | cons c word ih =>
    obtain ⟨hc, hword⟩ := List.forall_mem_cons.1 hword
    rw [List.cons_append] at h ⊢
    cases hcont : isIdentifierContinue c with
    | true =>
      rw [List.dropWhile_cons_of_pos hcont] at h ⊢
      exact ih hword h
    | false =>
      -- A letter or digit that no identifier has begins no piece, so that scanning would have come to an end.
      rw [List.dropWhile_cons_of_neg (by simp [hcont])] at h
      have hquote' := isUnquoted_append (List.forall_mem_cons.2 ⟨hc, hword⟩) hquote
      rw [isIdentifierContinue_of_scans hc hquote' h] at hcont
      cases hcont

/-- A label is one identifier. -/
theorem scans_of_label {word text : List Char} {found : List Lexeme} (hword : isLabel word = true)
    (hquote : isUnquoted text = true) (hend : text.head?.all (!isIdentifierContinue ·) = true)
    (h : Scans (word ++ text) found) : ∃ name more, found = .leaf (.ident name) :: more ∧ Scans text more := by
  have hcharacters := isLabelCharacter_of_isLabel hword
  have hall := isUnquoted_append hcharacters hquote
  cases word with
  | nil => cases hword
  | cons c word =>
    obtain ⟨hc, hcharacters⟩ := List.forall_mem_cons.1 hcharacters
    rw [List.cons_append] at h hall
    obtain ⟨lexemes, rest, hpiece⟩ := h.exists_piece (List.cons_ne_nil c _)
    obtain ⟨more, rfl, hmore⟩ := h.of_piece hpiece
    rw [piece_of_isLabelCharacter hc] at hpiece
    obtain ⟨⟨token, behind⟩, hleaf, heq⟩ := Option.map_eq_some_iff.1 hpiece
    cases heq
    obtain ⟨-, ⟨name, rfl⟩, rfl⟩ := leaf?_of_isUnquoted hc (not_isDigit_of_isLabel hword) hall hleaf
    rw [dropWhile_of_scans hcharacters hquote hend hmore] at hmore
    exact ⟨name, more, rfl, hmore⟩

/-! ## Reading a label -/

/-- A colon is single if it is not joined to another. -/
theorem isColon_cons {spacing : Spacing} {rest : List Token}
    (h : spacing = .joint → Expression.isSpelled [':'] rest = false) :
    Expression.isColon (.punct ':' spacing :: rest) = true := by
  cases spacing with
  | alone => rfl
  | joint => simp [Expression.isColon, Expression.isOperator, Expression.isSpelled, h rfl]

/-- A blank or a colon ends a label. -/
theorem ends_label {c : Char} (h : isBlank c = true ∨ c = ':') (text : List Char) :
    isUnquoted (c :: text) = true ∧ isIdentifierContinue c = false := by
  have hc : c ∉ ['"', '#', '\''] := by
    rcases h with h | rfl
    · exact not_mem_of_all (by decide) h
    · decide
  have hend : isLabelCharacter c = false ∧ isIdentifierContinue c = false := by
    rcases h with h | rfl
    · have hgap := isGap_of_isBlank h
      exact ⟨not_isLabelCharacter_of_isGap hgap, not_isIdentifierContinue_of_isGap hgap⟩
    · decide
  refine ⟨?_, hend.2⟩
  rw [isUnquoted, hend.1]
  simpa using hc

/-- A label with blanks and a single colon behind it is read as an identifier and a single colon. -/
theorem exists_of_read?_label {word blanks text : List Char} {tokens : List Token} (hword : isLabel word = true)
    (hblanks : ∀ c ∈ blanks, isBlank c = true) (htext : text.head? ≠ some ':')
    (h : Token.read? (word ++ (blanks ++ ':' :: text)) = some tokens) :
    ∃ name rest, tokens = .ident name :: rest ∧ Expression.isColon rest = true := by
  obtain ⟨located, hlocate, rfl⟩ := Option.map_eq_some_iff.1 h
  obtain ⟨lexemes, hscan, hnest⟩ := Option.bind_eq_some_iff.1 hlocate
  have hmark : (word ++ (blanks ++ ':' :: text)).head? ≠ some '\uFEFF' := by
    cases word with
    | nil => cases hword
    | cons c word =>
      intro hc
      cases hc
      have hfirst : isAlphabetic '\uFEFF' = false := by decide +kernel
      simp [isLabel, hfirst] at hword
  have hbehind : isUnquoted (blanks ++ ':' :: text) = true ∧
      (blanks ++ ':' :: text).head?.all (!isIdentifierContinue ·) = true := by
    cases blanks with
    | nil =>
      obtain ⟨hquote, hend⟩ := ends_label (Or.inr rfl) text
      exact ⟨hquote, by simpa using hend⟩
    | cons c blanks =>
      obtain ⟨hquote, hend⟩ := ends_label (Or.inl (hblanks c List.mem_cons_self)) (blanks ++ ':' :: text)
      exact ⟨hquote, by simpa using hend⟩
  obtain ⟨name, more, hfound, hmore⟩ := scans_of_label hword hbehind.1 hbehind.2 (scans_of_scan hmark hscan)
  obtain ⟨spacing, rest, rfl, hrest, hjoint⟩ := (hmore.of_blanks hblanks).of_colon
  cases spacing with
  | alone =>
    obtain ⟨behind, hp⟩ := @Token.prefix_of_nest _ _ _ hnest [.ident name, .punct ':' .alone] _ hfound
    exact ⟨name, .punct ':' .alone :: behind, hp.symm, isColon_cons fun hs => Spacing.noConfusion hs⟩
  | joint =>
    -- The colon is joined to a token that begins with punctuation, and this is no second colon.
    cases text with
    | nil => cases hjoint rfl
    | cons c text =>
      obtain ⟨token, last, rfl, htoken⟩ := hrest.of_punctuation (hjoint rfl)
      obtain ⟨behind, hp⟩ := @Token.prefix_of_nest _ _ _ hnest [.ident name, .punct ':' .joint, token] _ hfound
      refine ⟨name, .punct ':' .joint :: token :: behind, hp.symm, isColon_cons fun _ => ?_⟩
      rcases htoken with ⟨written, rfl⟩ | ⟨spacing, rfl⟩
      · rfl
      · have hc : ':' ≠ c := fun he => htext (he ▸ rfl)
        simp [Expression.isSpelled, hc]

/-- A label ends at a colon, and blanks behind the word are all that is between. -/
theorem exists_trim_of_labelled {body label rest : List Char} (h : Labelled body label rest) :
    ∃ blanks text, (∀ c ∈ blanks, isBlank c = true) ∧ text.head? ≠ some ':' ∧
      trim body = label ++ (blanks ++ ':' :: text) := by
  obtain ⟨before, rfl, rfl, hlabel, hrest⟩ := h
  obtain ⟨blanks, hblanks, hstart⟩ := exists_trimEnd_append (trimStart before)
  obtain ⟨end', -, hend⟩ := exists_trimEnd_append rest
  have hbefore : trimStart (before ++ ':' :: rest) = trimStart before ++ ':' :: rest := by
    have hne : (trimStart before).isEmpty = false := by
      cases hs : trimStart before with
      | nil => rw [trim, hs] at hlabel; cases hlabel
      | cons c text => rfl
    rw [trimStart] at hne ⊢
    rw [List.dropWhile_append, hne]
    rfl
  refine ⟨blanks, trimEnd rest, hblanks, fun hhead => hrest ?_, ?_⟩
  · rw [hend, List.head?_append, hhead]
    rfl
  · rw [trim, hbefore, trimEnd_append_cons _ _ (by decide), trim, ← List.append_assoc, ← hstart]

/-- An expression has no label. -/
theorem not_labelled_of_parse {body : List Char} {place : Span} {expression : Expression}
    (h : Expression.parse (String.ofList body) place = .ok expression) (label rest : List Char) :
    ¬Labelled body label rest := by
  intro hlabelled
  obtain ⟨blanks, text, hblanks, htext, htrim⟩ := exists_trim_of_labelled hlabelled
  obtain ⟨-, -, -, hlabel, -⟩ := hlabelled
  obtain ⟨-, read, hread, -⟩ := Expression.parse_eq_ok_iff.1 h
  obtain ⟨tokens, htokens, hof⟩ := Option.bind_eq_some_iff.1 hread
  rw [String.toList_ofList, htrim] at htokens
  obtain ⟨name, more, rfl, hcolon⟩ := exists_of_read?_label hlabel hblanks htext htokens
  rw [Expression.ofTokens?_ident_colon hcolon] at hof
  cases hof

end PrivateLog.Template
