import PrivateLog.Token.Tree

/-!
# Scanning piece by piece

`Scans` says which lexemes a text is made of, without the places of the lexemes and the fuel of the scanner: those of the
piece at its beginning, and those of the rest (`Scans.of_piece`). What the piece is depends on the first character, and for a
few kinds of first characters this is said here: blanks, a colon, and punctuation. Lexemes that are tokens and stand in no
group are the first tokens of the text (`prefix_of_nest`).
-/

namespace PrivateLog

namespace Lexeme

open Text

/-! ## Numbers -/

/-- A character that is no digit is none in base ten. -/
theorem digitValue?_of_not_isDigit {c : Char} (h : c.isDigit = false) : Number.digitValue? 10 c = none := by
  unfold Number.digitValue?
  simp only [h, Bool.false_eq_true, if_false, ite_eq_right_iff, reduceCtorEq, imp_false, Nat.not_lt]
  split
  · omega
  · split <;> omega

/-- Where no digit stands no number begins. -/
theorem skip_of_not_isDigit {c : Char} (h : c.isDigit = false) (text : List Char) : Number.skip (c :: text) = none := by
  have hfractional : Number.skipFractional (c :: text) = none := by
    rw [Number.skipFractional, h]
    rfl
  have hbase : Number.splitBase (c :: text) = (10, c :: text) := by
    unfold Number.splitBase
    split
    all_goals first
      | rfl
      | (rename_i heq; cases heq; cases h)
  have hdigits : Number.skipDigits 10 false (c :: text) = none := by
    simp [Number.skipDigits, digitValue?_of_not_isDigit h]
  have hwhole : Number.skipWhole (c :: text) = none := by
    rw [Number.skipWhole, hbase]
    dsimp only
    rw [hdigits]
    rfl
  rw [Number.skip, hfractional, hwhole]
  rfl

/-! ## Gaps -/

/-- The code points of the characters between tokens. -/
def gapCodes : List Nat :=
  List.range' 0x9 5 ++ List.range' 0x2000 11 ++
    [0x20, 0x85, 0xA0, 0x1680, 0x200E, 0x200F, 0x2028, 0x2029, 0x202F, 0x205F, 0x3000]

/-- There are no others. -/
theorem toNat_mem_gapCodes {c : Char} (h : isGap c = true) : c.toNat ∈ gapCodes := by
  simp only [isGap, isBlank, Bool.or_eq_true, Bool.and_eq_true, decide_eq_true_eq, beq_iff_eq] at h
  simp only [gapCodes, List.mem_append, List.mem_range'_1, List.mem_cons, List.not_mem_nil, or_false]
  grind

/-- Blanks stand between tokens. -/
theorem isGap_of_isBlank {c : Char} (h : isBlank c = true) : isGap c = true := by
  rw [isGap, h]
  rfl

/-- A character between tokens stands in no identifier. -/
theorem not_isIdentifierContinue_of_isGap {c : Char} (h : isGap c = true) : isIdentifierContinue c = false := by
  have hall : ∀ code ∈ gapCodes, isIdentifierContinue (Char.ofNat code) = false := by
    decide +kernel
  have hc := hall _ (toNat_mem_gapCodes h)
  rwa [Char.ofNat_toNat] at hc

/-! ## Pieces -/

/-- The brackets, and the slash that may begin a comment. -/
def delimiters : List Char :=
  ['/', '(', '[', '{', ')', ']', '}']

/-- A character that passes a test that none of some characters passes is none of them. -/
theorem not_mem_of_all {test : Char → Bool} {characters : List Char} (h : characters.all (!test ·) = true) {c : Char}
    (hc : test c = true) : c ∉ characters := by
  intro hm
  have htest := List.all_eq_true.1 h c hm
  rw [hc] at htest
  cases htest

/-- A character that is no bracket and begins no comment is a gap, or the beginning of a token. -/
theorem piece_cons {c : Char} (h : c ∉ delimiters) (text : List Char) :
    piece (c :: text) =
      if isGap c then some ([], text) else (fun found => ([.leaf found.1], found.2)) <$> leaf? (c :: text) := by
  unfold piece
  split
  case h_10 heq =>
    cases heq
    rfl
  case h_9 heq => cases heq
  all_goals
    rename_i heq
    cases heq
    simp [delimiters] at h

/-- A slash that is punctuation is a token. -/
theorem piece_slash {text : List Char} (h : startsPunctuation ('/' :: text) = true) :
    piece ('/' :: text) = (fun found => ([.leaf found.1], found.2)) <$> leaf? ('/' :: text) := by
  cases text with
  | nil => rfl
  | cons c text =>
    unfold piece
    split
    case h_10 heq =>
      cases heq
      rfl
    case h_1 heq =>
      cases heq
      simp [startsPunctuation] at h
    case h_2 heq =>
      cases heq
      simp [startsPunctuation] at h
    all_goals
      rename_i heq
      cases heq

/-- Where punctuation begins there is no gap, bracket or comment. -/
theorem piece_of_startsPunctuation {c : Char} {text : List Char} (h : startsPunctuation (c :: text) = true) :
    piece (c :: text) = (fun found => ([.leaf found.1], found.2)) <$> leaf? (c :: text) := by
  by_cases hc : c = '/'
  · subst hc
    exact piece_slash h
  · have hpunctuation : isPunctuation c = true := by
      unfold startsPunctuation at h
      split at h
      · cases h
      · cases h
      · rename_i heq
        cases heq
        exact h
      · cases h
    have hgap : c ∉ "~!@#$%^&*-=+|;:,<.>/?'".toList ∨ isGap c = false := by
      cases hg : isGap c with
      | false => exact Or.inr rfl
      | true => exact Or.inl (not_mem_of_all (by decide) hg)
    have hbracket : c ∉ delimiters := by
      intro hm
      have hall : delimiters.all (fun d => d == '/' || !isPunctuation d) = true := by decide
      have htest := List.all_eq_true.1 hall c hm
      simp [hc, hpunctuation] at htest
    rw [piece_cons hbracket, hgap.resolve_left fun hm => hm (of_decide_eq_true hpunctuation)]
    rfl

/-- What begins with punctuation is a literal, or the punctuation character. -/
theorem token_of_startsPunctuation {c : Char} {text rest : List Char} {token : Token}
    (h : startsPunctuation (c :: text) = true) (ht : leaf? (c :: text) = some (token, rest)) :
    (∃ written, token = .literal written) ∨ ∃ spacing, token = .punct c spacing := by
  unfold leaf? at ht
  split at ht
  · cases ht
    exact Or.inl ⟨_, rfl⟩
  · simp only [h, if_true] at ht
    split at ht
    · split at ht
      · cases ht
        exact Or.inr ⟨_, rfl⟩
      · cases ht
    · cases ht
      exact Or.inr ⟨_, rfl⟩

/-- A byte order mark is no part of source text. -/
theorem piece_mark (text : List Char) : piece ('\uFEFF' :: text) = none := by
  have hstart : isIdentifierStart '\uFEFF' = false := by decide +kernel
  have hliteral : skipLiteral ('\uFEFF' :: text) = none := by
    rw [skipLiteral, skip_of_not_isDigit (by decide)]
    rfl
  have hword : splitIdentifier ('\uFEFF' :: text) = none := by
    unfold splitIdentifier
    split
    · rename_i heq
      cases heq
    · rw [splitWord, hstart]
      rfl
  have hleaf : leaf? ('\uFEFF' :: text) = none := by
    simp [leaf?, hliteral, hword, startsPunctuation, isPunctuation]
  rw [piece_cons (by decide), hleaf]
  rfl

/-! ## Scanning to the end -/

/-- The text is made of these lexemes. -/
inductive Scans : List Char → List Lexeme → Prop where
  | nil : Scans [] []
  | cons {text rest : List Char} {lexemes more : List Lexeme} : piece text = some (lexemes, rest) → Scans rest more →
      Scans text (lexemes ++ more)

/-- What is scanned is made of the lexemes that are found. -/
theorem scans_of_scanWithin {fuel offset : Nat} {text : List Char} {found : List (Located Lexeme)}
    (h : scanWithin fuel offset text = some found) : Scans text (found.map (·.value)) := by
  induction fuel generalizing offset text found with
  | zero =>
    cases text with
    | nil =>
      cases h
      exact .nil
    | cons c text => cases h
  | succ fuel ih =>
    cases text with
    | nil =>
      cases h
      exact .nil
    | cons c text =>
      obtain ⟨⟨lexemes, rest⟩, hpiece, h⟩ := Option.bind_eq_some_iff.1 h
      obtain ⟨more, hmore, h⟩ := Option.bind_eq_some_iff.1 h
      cases h
      simpa [Function.comp_def] using Scans.cons hpiece (ih hmore)

/-- A text that has no byte order mark is scanned from its beginning. -/
theorem scans_of_scan {text : List Char} {found : List (Located Lexeme)} (hmark : text.head? ≠ some '\uFEFF')
    (h : scan text = some found) : Scans text (found.map (·.value)) := by
  unfold scan at h
  split at h
  · exact absurd rfl hmark
  · exact scans_of_scanWithin h

/-- What a text begins with is the piece at its beginning. -/
theorem Scans.of_piece {text rest : List Char} {lexemes found : List Lexeme} (h : Scans text found)
    (hpiece : piece text = some (lexemes, rest)) : ∃ more, found = lexemes ++ more ∧ Scans rest more := by
  cases h with
  | nil => cases hpiece
  | cons hpiece' hmore =>
    rw [hpiece] at hpiece'
    cases hpiece'
    exact ⟨_, rfl, hmore⟩

/-- At the beginning of a text that is not empty there is a piece. -/
theorem Scans.exists_piece {text : List Char} {found : List Lexeme} (h : Scans text found) (hne : text ≠ []) :
    ∃ lexemes rest, piece text = some (lexemes, rest) := by
  cases h with
  | nil => exact absurd rfl hne
  | cons hpiece => exact ⟨_, _, hpiece⟩

/-- Blanks are passed over. -/
theorem Scans.of_blanks {blanks text : List Char} {found : List Lexeme} (hblanks : ∀ c ∈ blanks, isBlank c = true)
    (h : Scans (blanks ++ text) found) : Scans text found := by
  induction blanks generalizing found with
  | nil => exact h
  | cons c blanks ih =>
    obtain ⟨hc, hblanks⟩ := List.forall_mem_cons.1 hblanks
    have hbracket : c ∉ delimiters := not_mem_of_all (by decide) hc
    have hpiece : piece (c :: (blanks ++ text)) = some ([], blanks ++ text) := by
      rw [piece_cons hbracket, isGap_of_isBlank hc]
      rfl
    obtain ⟨more, rfl, hmore⟩ := h.of_piece hpiece
    exact ih hblanks hmore

/-- A colon is joined to what follows only if that begins with punctuation. -/
theorem Scans.of_colon {text : List Char} {found : List Lexeme} (h : Scans (':' :: text) found) :
    ∃ spacing more, found = .leaf (.punct ':' spacing) :: more ∧ Scans text more ∧
      (spacing = .joint → startsPunctuation text = true) := by
  have hpiece : piece (':' :: text) =
      some ([.leaf (.punct ':' (if startsPunctuation text then .joint else .alone))], text) := by
    have hliteral : skipLiteral (':' :: text) = none := by
      rw [skipLiteral, skip_of_not_isDigit (by decide)]
      rfl
    have hstart : startsPunctuation (':' :: text) = true := rfl
    rw [piece_of_startsPunctuation hstart, leaf?, hliteral]
    simp [hstart]
  obtain ⟨more, rfl, hmore⟩ := h.of_piece hpiece
  refine ⟨_, more, rfl, hmore, fun hjoint => ?_⟩
  cases hs : startsPunctuation text with
  | true => rfl
  | false =>
    rw [hs] at hjoint
    cases hjoint

/-- What stands where punctuation begins is a literal, or a punctuation character. -/
theorem Scans.of_punctuation {c : Char} {text : List Char} {found : List Lexeme} (hs : startsPunctuation (c :: text) = true)
    (h : Scans (c :: text) found) :
    ∃ token more, found = .leaf token :: more ∧
      ((∃ written, token = .literal written) ∨ ∃ spacing, token = .punct c spacing) := by
  obtain ⟨lexemes, rest, hpiece⟩ := h.exists_piece (List.cons_ne_nil c text)
  obtain ⟨more, rfl, -⟩ := h.of_piece hpiece
  rw [piece_of_startsPunctuation hs] at hpiece
  obtain ⟨⟨token, behind⟩, hleaf, heq⟩ := Option.map_eq_some_iff.1 hpiece
  cases heq
  exact ⟨token, more, rfl, token_of_startsPunctuation hs hleaf⟩

end Lexeme

namespace Token

/-- The tokens in front of all open groups, last first; all that were read if no group is open. -/
def outermost : List OpenGroup → List (Located Token) → List (Located Token)
  | [], done => done
  | innermost :: pending, _ => outermost pending innermost.before

/-- One more token stands behind them. -/
theorem outermost_prefix_cons (pending : List OpenGroup) (token : Located Token) (done : List (Located Token)) :
    (outermost pending done).reverse <+: (outermost pending (token :: done)).reverse := by
  cases pending with
  | nil => exact ⟨[token], List.reverse_cons.symm⟩
  | cons innermost pending => exact List.prefix_rfl

/-- What stands in front of all open groups is what the tokens begin with. -/
theorem outermost_prefix_of_nest {pending : List OpenGroup} {done tokens : List (Located Token)}
    {lexemes : List (Located Lexeme)} (h : nest pending done lexemes = some tokens) :
    (outermost pending done).reverse <+: tokens := by
  induction lexemes generalizing pending done with
  | nil =>
    cases pending with
    | nil =>
      cases h
      exact List.prefix_rfl
    | cons innermost pending => cases h
  | cons located lexemes ih =>
    obtain ⟨lexeme, span⟩ := located
    cases lexeme with
    | leaf token => exact (outermost_prefix_cons pending _ done).trans (ih h)
    | opening delimiter =>
      rw [nest] at h
      have hp := ih h
      exact hp
    | closing delimiter =>
      cases pending with
      | nil => cases h
      | cons innermost pending =>
        rw [nest] at h
        split at h
        · exact (outermost_prefix_cons pending _ innermost.before).trans (ih h)
        · cases h

/-- Lexemes that are tokens are the first tokens of the text. -/
theorem prefix_of_nest {done tokens : List (Located Token)} {lexemes : List (Located Lexeme)}
    (h : nest [] done lexemes = some tokens) {first : List Token} {more : List Lexeme}
    (hfirst : lexemes.map (·.value) = first.map .leaf ++ more) :
    done.reverse.map (·.value) ++ first <+: tokens.map (·.value) := by
  induction first generalizing done lexemes with
  | nil =>
    rw [List.append_nil]
    exact (outermost_prefix_of_nest h).map _
  | cons token first ih =>
    cases lexemes with
    | nil => cases hfirst
    | cons located lexemes =>
      obtain ⟨lexeme, span⟩ := located
      rw [List.map_cons, List.map_cons, List.cons_append, List.cons.injEq] at hfirst
      obtain ⟨rfl, hfirst⟩ := hfirst
      rw [nest] at h
      simpa using ih h hfirst

end Token

end PrivateLog
