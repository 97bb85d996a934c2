import PrivateLog.Proofs.Token.Identifier
import PrivateLog.Proofs.Token.Numbers

/-!
# Where tokens end

A token ends at the latest where a blank, a closing bracket or nothing follows. What a literal or an identifier is does not
depend on which of these it is (`skipLiteral_append`, `IsBounded.splitIdentifier_append`), so one that was found anywhere is
found again where another end follows (`piece_literal`, `piece_ident`). Punctuation is joined to what follows exactly if that
is punctuation, too (`piece_punct`), and an apostrophe to the name of a lifetime (`piece_apostrophe`), which is never mistaken
for a character between quotes.
-/

namespace PrivateLog

open Text

/-- The end of a text ends every token. -/
theorem endsToken_nil : EndsToken [] :=
  fun c hc => by cases hc

/-- So does one of the characters that do. -/
theorem endsToken_cons {c : Char} (h : c ∈ tokenEnds) (text : List Char) : EndsToken (c :: text) :=
  fun d hd => by cases hd; exact h

namespace Number

variable {x y : List Char}

/-- Behind all characters that go on with an identifier none goes on. -/
theorem endsHere_dropWhile (text : List Char) : endsHere (text.dropWhile isIdentifierContinue) = true := by
  have hhead := List.head?_dropWhile_not isIdentifierContinue text
  cases h : text.dropWhile isIdentifierContinue with
  | nil => rfl
  | cons c rest =>
    rw [h, List.head?_cons] at hhead
    rw [endsHere, hhead]
    rfl

/-- A suffix that takes all in front of some text takes it also if a token ends there. -/
theorem skipSuffix_append_of_eq (hy : endsHere y = true) {rest : List Char} (h : skipSuffix (rest ++ x) = x) :
    skipSuffix (rest ++ y) = y := by
  rw [skipSuffix_append hy, List.append_left_eq_self]
  cases rest with
  | nil => rfl
  | cons c rest =>
    have hx : endsHere x = true := by
      rw [List.cons_append, skipSuffix] at h
      split at h
      · rw [← h]
        exact endsHere_dropWhile _
      · have hlength := congrArg List.length h
        simp only [List.length_cons, List.length_append] at hlength
        omega
    rwa [skipSuffix_append hx, List.append_left_eq_self] at h

end Number

namespace Lexeme

variable {x y : List Char}

/-- A digit announces no literal between quotes. -/
theorem skip_of_isDigit {c : Char} (h : c.isDigit = true) (text : List Char) : StringLiteral.skip (c :: text) = none := by
  unfold StringLiteral.skip
  split
  case h_9 => rfl
  all_goals
    rename_i heq
    cases heq
    cases h

/-- A literal stands in front of what is left, also if a token ends there instead. -/
theorem skipLiteral_append (hy : EndsToken y) {text : List Char} (h : skipLiteral (text ++ x) = some x) :
    skipLiteral (text ++ y) = some y := by
  unfold skipLiteral at h
  split at h
  · rename_i behind hskip
    obtain ⟨used, heq, -, hmore⟩ := StringLiteral.exists_used_of_skip hskip
    have hsuffix := Option.some.inj h
    obtain ⟨rest, rfl⟩ := Number.exists_append_of_skipSuffix hsuffix
    rw [← List.append_assoc] at heq
    rw [List.append_cancel_right heq, List.append_assoc, skipLiteral, hmore]
    exact congrArg some (Number.skipSuffix_append_of_eq (Number.endsHere_of_endsToken hy) hsuffix)
  · cases text with
    | nil => cases Number.skip_append endsToken_nil h
    | cons c text =>
      have hdigit : c.isDigit = true := by
        cases hc : c.isDigit with
        | true => rfl
        | false =>
          rw [List.cons_append, skip_of_not_isDigit hc] at h
          cases h
      rw [skipLiteral, List.cons_append, skip_of_isDigit hdigit, ← List.cons_append]
      exact Number.skip_append hy h

/-- A literal begins with a quote, with a letter that announces one, or with a digit. -/
theorem head_of_skipLiteral {c : Char} {text rest : List Char} (h : skipLiteral (c :: text) = some rest) :
    c ∈ ['"', '\'', 'r', 'b', 'c'] ∨ c.isDigit = true := by
  cases hc : c.isDigit with
  | true => exact Or.inr rfl
  | false =>
    refine Or.inl ?_
    unfold skipLiteral at h
    split at h
    · rename_i hskip
      unfold StringLiteral.skip at hskip
      split at hskip
      case h_9 => cases hskip
      all_goals
        rename_i heq
        cases heq
        decide
    · rw [skip_of_not_isDigit hc] at h
      cases h

/-- A text that is a literal is no other token, and ends where every token ends. -/
theorem piece_literal (hy : EndsToken y) {text : List Char} (h : skipLiteral (text ++ x) = some x) :
    piece (text ++ y) = some ([.leaf (.literal (String.ofList text))], y) := by
  have hliteral := skipLiteral_append hy h
  have hleaf : leaf? (text ++ y) = some (.literal (String.ofList text), y) := by
    unfold leaf?
    rw [hliteral]
    simp
  cases text with
  | nil => cases skipLiteral_append endsToken_nil h
  | cons c text =>
    have hplain : c ∉ delimiters ∧ isGap c = false := by
      rcases head_of_skipLiteral h with hc | hc
      · have hall : ∀ c ∈ ['"', '\'', 'r', 'b', 'c'], c ∉ delimiters ∧ isGap c = false :=
          List.all_iff_forall_prop.1 (by decide)
        exact hall c hc
      · refine ⟨not_mem_of_all (by decide) hc, ?_⟩
        cases hgap : isGap c with
        | false => rfl
        | true =>
          have hcontinue := not_isIdentifierContinue_of_isGap hgap
          rw [Number.isIdentifierContinue_of_isDigitOrGap (by simp [Number.isDigitOrGap, hc])] at hcontinue
          cases hcontinue
    rw [List.cons_append] at hleaf ⊢
    rw [piece_cons hplain.1, hplain.2, hleaf]
    rfl

/-! ## Identifiers -/

/-- A text begins as only a literal may if it begins like one of the beginnings of literals. -/
theorem startsLiteral_of_start {start text : List Char} (hm : start ∈ literalStarts.map String.toList)
    (h : start <+: text) : startsLiteral text = true := by
  obtain ⟨literal, hliteral, rfl⟩ := List.mem_map.1 hm
  exact List.any_eq_true.2 ⟨literal, hliteral, List.isPrefixOf_iff_prefix.2 h⟩

/-- Behind the letters that announce a raw text it does: there is a quote, or a mark before a quote or another mark. -/
theorem startsLiteral_of_readRaw {alphabet : StringLiteral.Alphabet} {text : List Char} {found : List Char × List Char}
    {front : List Char} (hfront : front ++ ['"'] ∈ literalStarts.map String.toList)
    (hmark : front ++ ['#'] ∈ literalStarts.map String.toList ∨
      front ++ ['#', '"'] ∈ literalStarts.map String.toList ∧ front ++ ['#', '#'] ∈ literalStarts.map String.toList)
    (h : StringLiteral.readRaw alphabet text = some found) : startsLiteral (front ++ text) = true := by
  obtain ⟨values, rest⟩ := found
  obtain ⟨hashes, body, rfl, -⟩ := StringLiteral.exists_body_of_readRaw h
  have hbegins : ∀ start, start <+: List.replicate hashes '#' ++ '"' :: body →
      front ++ start ∈ literalStarts.map String.toList →
      startsLiteral (front ++ (List.replicate hashes '#' ++ '"' :: body)) = true := by
    rintro start ⟨more, hmore⟩ hm
    exact startsLiteral_of_start hm ⟨more, by rw [List.append_assoc, hmore]⟩
  match hashes with
  | 0 => exact hbegins ['"'] ⟨body, rfl⟩ hfront
  | 1 =>
    rcases hmark with hmark | ⟨hmark, -⟩
    · exact hbegins ['#'] ⟨_, rfl⟩ hmark
    · exact hbegins ['#', '"'] ⟨_, rfl⟩ hmark
  | hashes + 2 =>
    rcases hmark with hmark | ⟨-, hmark⟩
    · exact hbegins ['#'] ⟨_, rfl⟩ hmark
    · exact hbegins ['#', '#'] ⟨_, rfl⟩ hmark

/-- A literal between quotes begins with a quote, or as only a literal may. -/
theorem startsLiteral_of_skip {text rest : List Char} (h : StringLiteral.skip text = some rest) :
    startsLiteral text = true ∨ ∃ c ∈ text.head?, c ∈ ['"', '\''] := by
  unfold StringLiteral.skip at h
  split at h
  case h_9 => cases h
  all_goals obtain ⟨found, hread, -⟩ := Option.map_eq_some_iff.1 h
  case h_1 => exact Or.inr ⟨'"', rfl, by decide⟩
  case h_2 => exact Or.inl (@startsLiteral_of_readRaw _ _ _ ['r'] (by decide) (Or.inr (by decide)) hread)
  case h_3 => exact Or.inl (@startsLiteral_of_start ['b', '"'] _ (by decide) ⟨_, rfl⟩)
  case h_4 => exact Or.inl (@startsLiteral_of_readRaw _ _ _ ['b', 'r'] (by decide) (Or.inl (by decide)) hread)
  case h_5 => exact Or.inl (@startsLiteral_of_start ['c', '"'] _ (by decide) ⟨_, rfl⟩)
  case h_6 => exact Or.inl (@startsLiteral_of_readRaw _ _ _ ['c', 'r'] (by decide) (Or.inl (by decide)) hread)
  case h_7 => exact Or.inl (@startsLiteral_of_start ['b', '\''] _ (by decide) ⟨_, rfl⟩)
  case h_8 => exact Or.inr ⟨'\'', rfl, by decide⟩

/-- What a text begins with, other than blanks and closing brackets, is settled before a token ends. -/
theorem prefix_append_iff (hy : EndsToken y) {start text : List Char} (h : ∀ c ∈ start, c ∉ tokenEnds) :
    start <+: text ++ y ↔ start <+: text := by
  refine ⟨fun hstart => ?_, fun hstart => hstart.trans (List.prefix_append text y)⟩
  rcases List.prefix_or_prefix_of_prefix hstart (List.prefix_append text y) with hlead | ⟨more, rfl⟩
  · exact hlead
  · obtain hmore := (List.prefix_append_right_inj text).1 hstart
    cases more with
    | nil => rw [List.append_nil]
    | cons c more =>
      obtain ⟨behind, rfl⟩ := hmore
      exact absurd (hy c rfl) (h c (List.mem_append_right text List.mem_cons_self))

/-- Whether a text begins as only a literal may is settled there. -/
theorem startsLiteral_append (hy : EndsToken y) (text : List Char) : startsLiteral (text ++ y) = startsLiteral text := by
  have hstarts : ∀ start ∈ literalStarts, start.toList.all (· ∉ tokenEnds) = true := by decide
  rw [Bool.eq_iff_iff, startsLiteral, startsLiteral, List.any_eq_true, List.any_eq_true]
  refine exists_congr fun start => and_congr_right fun hm => ?_
  rw [List.isPrefixOf_iff_prefix, List.isPrefixOf_iff_prefix]
  exact prefix_append_iff hy (List.all_iff_forall_prop.1 (hstarts start hm))

/-- Whether no identifier at the beginning of a text goes on behind it: a token ends there, or the text holds a quote. -/
def IsBounded (text behind : List Char) : Prop :=
  EndsToken behind ∨ '"' ∈ text ∨ '\'' ∈ text

/-- A quote is no part of what passes a test that it does not pass. -/
theorem IsBounded.of_append {front text behind : List Char} (hfront : '"' ∉ front ∧ '\'' ∉ front)
    (h : IsBounded (front ++ text) behind) : IsBounded text behind := by
  simpa [IsBounded, hfront.1, hfront.2] using h

/-- Characters of identifiers end in such a text, or with it. -/
theorem IsBounded.dropWhile_append {text behind : List Char} (h : IsBounded text behind) :
    (text ++ behind).dropWhile isIdentifierContinue = text.dropWhile isIdentifierContinue ++ behind := by
  have hquotes : isIdentifierContinue '"' = false ∧ isIdentifierContinue '\'' = false := by decide
  rcases h with hends | hquote
  · exact Number.dropWhile_append_of_endsHere (fun _ h => h) (Number.endsHere_of_endsToken hends) text
  · have hne : ¬(text.dropWhile isIdentifierContinue).isEmpty = true := by
      intro hempty
      have hall := List.dropWhile_eq_nil_iff.1 (List.isEmpty_iff.1 hempty)
      rcases hquote with hm | hm
      · exact absurd (hall _ hm) (by rw [hquotes.1]; decide)
      · exact absurd (hall _ hm) (by rw [hquotes.2]; decide)
    rw [List.dropWhile_append, if_neg hne]

/-- Where every token ends no word begins. -/
theorem splitWord_of_endsToken (hy : EndsToken y) : splitWord y = none := by
  cases y with
  | nil => rfl
  | cons c y =>
    have hall : ∀ c ∈ tokenEnds, isIdentifierStart c = false := List.all_iff_forall_prop.1 (by decide +kernel)
    rw [splitWord, hall c (hy c rfl)]
    rfl

/-- A word ends in it, or with it. -/
theorem IsBounded.splitWord_append {text behind : List Char} (h : IsBounded text behind) :
    splitWord (text ++ behind) = (fun found => (found.1, found.2 ++ behind)) <$> splitWord text := by
  cases text with
  | nil =>
    rw [List.nil_append, splitWord_of_endsToken (by simpa [IsBounded] using h)]
    rfl
  | cons c text =>
    rw [List.cons_append, splitWord, splitWord]
    split
    · rename_i hc
      have hplain : '"' ∉ [c] ∧ '\'' ∉ [c] := by
        have hquotes : isIdentifierStart '"' = false ∧ isIdentifierStart '\'' = false := by decide
        constructor
        all_goals
          intro hm
          rw [← List.mem_singleton.1 hm] at hc
          simp [hquotes] at hc
      have hdrop := (IsBounded.of_append hplain h).dropWhile_append
      have htake : (text ++ behind).takeWhile isIdentifierContinue = text.takeWhile isIdentifierContinue := by
        have hboth : (text ++ behind).takeWhile isIdentifierContinue ++ (text.dropWhile isIdentifierContinue ++ behind) =
            text.takeWhile isIdentifierContinue ++ (text.dropWhile isIdentifierContinue ++ behind) := by
          rw [← hdrop, List.takeWhile_append_dropWhile, hdrop, ← List.append_assoc, List.takeWhile_append_dropWhile]
        exact List.append_cancel_right hboth
      rw [htake, hdrop]
      rfl
    · rfl

/-- The mark of raw identifiers is not completed behind it. -/
theorem IsBounded.raw_prefix_iff {text behind : List Char} (h : IsBounded text behind) :
    ['r', '#'] <+: text ++ behind ↔ ['r', '#'] <+: text := by
  rcases h with hends | hquote
  · exact prefix_append_iff hends (List.all_iff_forall_prop.1 (by decide))
  · refine ⟨fun hraw => ?_, fun hraw => hraw.trans (List.prefix_append text behind)⟩
    rcases List.prefix_or_prefix_of_prefix hraw (List.prefix_append text behind) with hlead | hlead
    · exact hlead
    · rcases hquote with hm | hm
      · exact absurd (hlead.subset hm) (by decide)
      · exact absurd (hlead.subset hm) (by decide)

/-- Without the mark of raw identifiers an identifier is a word. -/
theorem splitIdentifier_of_not_raw {text : List Char} (h : ¬['r', '#'] <+: text) :
    splitIdentifier text = (fun found => (String.ofList found.1, found.2)) <$> splitWord text := by
  unfold splitIdentifier
  split
  · exact absurd ⟨_, rfl⟩ h
  · cases splitWord text <;> rfl

/-- So it ends where a word does. -/
theorem IsBounded.splitIdentifier_append {text behind : List Char} (h : IsBounded text behind) :
    splitIdentifier (text ++ behind) = (fun found => (found.1, found.2 ++ behind)) <$> splitIdentifier text := by
  by_cases hraw : ['r', '#'] <+: text
  · obtain ⟨text, rfl⟩ := hraw
    have hsplit := (h.of_append (by decide)).splitWord_append
    rw [List.append_assoc, List.cons_append, List.cons_append, List.nil_append, List.cons_append, List.cons_append,
      List.nil_append, splitIdentifier, splitIdentifier, hsplit]
    cases splitWord text with
    | none => rfl
    | some found =>
      by_cases hnever : String.ofList found.1 ∈ neverRaw
      · simp [hnever]
      · simp [hnever]
  · rw [splitIdentifier_of_not_raw hraw, splitIdentifier_of_not_raw fun hr => hraw (h.raw_prefix_iff.1 hr),
      h.splitWord_append]
    cases splitWord text <;> rfl

/-- Whether a lifetime's name stands at the beginning is settled there, too. -/
theorem IsBounded.startsLifetime_append {text behind : List Char} (h : IsBounded text behind) :
    startsLifetime (text ++ behind) = startsLifetime text := by
  unfold startsLifetime
  rw [h.splitIdentifier_append]
  cases hsplit : splitIdentifier text with
  | none => rfl
  | some found =>
    obtain ⟨name, after⟩ := found
    cases after with
    | nil =>
      have htext := eq_append_of_splitIdentifier hsplit
      obtain ⟨c, tail, hname, -, hquote, hsingle⟩ := exists_of_splitIdentifier hsplit
      rw [List.append_nil, hname] at htext
      rw [htext] at h
      have hends : EndsToken behind := by simpa [IsBounded, hquote, hsingle] using h
      cases behind with
      | nil => rfl
      | cons d behind =>
        have hall : ∀ d ∈ tokenEnds, d ≠ '\'' ∧ d ≠ '#' := List.all_iff_forall_prop.1 (by decide)
        obtain ⟨hapostrophe, hmark⟩ := hall d (hends d rfl)
        simp [hapostrophe, hmark]
    | cons d after =>
      have hraw : "r#".toList.isPrefixOf (text ++ behind) = "r#".toList.isPrefixOf text := by
        rw [Bool.eq_iff_iff, List.isPrefixOf_iff_prefix, List.isPrefixOf_iff_prefix]
        exact h.raw_prefix_iff
      by_cases hapostrophe : d = '\''
      · subst hapostrophe
        rfl
      · by_cases hmark : d = '#'
        · subst hmark
          exact hraw
        · simp [hapostrophe, hmark]

/-- A text that is an identifier is no other token, and ends where every token ends. -/
theorem piece_ident (hy : EndsToken y) {name : String} (h : splitIdentifier name.toList = some (name, [])) :
    piece (name.toList ++ y) = some ([.leaf (.ident name)], y) := by
  obtain ⟨c, tail, hname, hc, hquote, hsingle⟩ := exists_of_splitIdentifier h
  have hstart : startsLiteral (name.toList ++ y) = false := by
    rw [startsLiteral_append hy, startsLiteral_of_splitIdentifier h]
  have hsplit : splitIdentifier (name.toList ++ y) = some (name, y) := by
    rw [IsBounded.splitIdentifier_append (Or.inl hy), h]
    rfl
  rw [hname, List.cons_append] at hstart hsplit ⊢
  have hskip : StringLiteral.skip (c :: (tail ++ y)) = none := by
    cases hs : StringLiteral.skip (c :: (tail ++ y)) with
    | none => rfl
    | some rest =>
      rcases startsLiteral_of_skip hs with hliteral | ⟨d, hd, hm⟩
      · rw [hstart] at hliteral
        cases hliteral
      · cases hd
        simp only [List.mem_cons, List.not_mem_nil, or_false] at hm
        rcases hm with rfl | rfl
        · exact absurd List.mem_cons_self hquote
        · exact absurd List.mem_cons_self hsingle
  have hliteral : skipLiteral (c :: (tail ++ y)) = none := by
    rw [skipLiteral, hskip, skip_of_not_isDigit (not_isDigit_of_isIdentifierStart hc)]
  have hleaf : leaf? (c :: (tail ++ y)) = some (.ident name, y) := by
    rw [leaf?, hliteral]
    simp [not_startsPunctuation_of_isIdentifierStart hc, hstart, hsplit]
  rw [piece_of_isIdentifierStart hc, hleaf]
  rfl

/-! ## Punctuation -/

/-- A punctuation character stands at the beginning unless a comment does. -/
theorem startsPunctuation_cons (c : Char) (text : List Char) :
    startsPunctuation (c :: text) = true ↔
      isPunctuation c = true ∧ ¬(c = '/' ∧ ∃ d ∈ text.head?, d = '/' ∨ d = '*') := by
  cases text with
  | nil => simp [startsPunctuation]
  | cons d text =>
    unfold startsPunctuation
    split
    · rename_i heq
      cases heq
      simp
    · rename_i heq
      cases heq
      simp
    · rename_i hslash hstar heq
      obtain ⟨rfl, rfl⟩ := List.cons.inj heq
      refine ⟨fun hc => ⟨hc, ?_⟩, And.left⟩
      rintro ⟨rfl, e, he, rfl | rfl⟩
      · cases he
        exact hslash text rfl rfl
      · cases he
        exact hstar text rfl rfl
    · rename_i heq
      cases heq

/-- Where every token ends no punctuation stands. -/
theorem startsPunctuation_of_endsToken (hy : EndsToken y) : startsPunctuation y = false := by
  cases y with
  | nil => rfl
  | cons c y =>
    have hall : ∀ c ∈ tokenEnds, isPunctuation c = false := List.all_iff_forall_prop.1 (by decide)
    cases hs : startsPunctuation (c :: y) with
    | false => rfl
    | true =>
      have hc := ((startsPunctuation_cons c y).1 hs).1
      rw [hall c (hy c rfl)] at hc
      cases hc

/-- Before a token ends, the characters at the beginning are the same as without what ends it. -/
theorem startsPunctuation_append (hy : EndsToken y) (text : List Char) :
    startsPunctuation (text ++ y) = startsPunctuation text := by
  cases text with
  | nil => exact startsPunctuation_of_endsToken hy
  | cons c text =>
    rw [Bool.eq_iff_iff, List.cons_append, startsPunctuation_cons, startsPunctuation_cons]
    cases text with
    | nil =>
      have hall : ∀ d ∈ tokenEnds, ¬(d = '/' ∨ d = '*') := List.all_iff_forall_prop.1 (by decide)
      have hnone : ¬∃ d ∈ y.head?, d = '/' ∨ d = '*' := fun ⟨d, hd, hm⟩ => hall d (hy d hd) hm
      exact and_congr_right fun _ => iff_of_true (fun hcomment => hnone hcomment.2) (by simp)
    | cons d text => rfl

/-- Whether punctuation begins a text is settled by its first two characters. -/
theorem startsPunctuation_of_append {text more : List Char} (hne : text ≠ [])
    (h : startsPunctuation (text ++ more) = true) : startsPunctuation text = true := by
  obtain ⟨c, text, rfl⟩ := List.exists_cons_of_ne_nil hne
  rw [List.cons_append, startsPunctuation_cons] at h
  refine (startsPunctuation_cons c text).2 ⟨h.1, fun hcomment => h.2 ⟨hcomment.1, ?_⟩⟩
  obtain ⟨-, d, hd, hm⟩ := hcomment
  exact ⟨d, by rw [List.head?_append, Option.mem_def.1 hd]; rfl, hm⟩

/-- Punctuation other than an apostrophe begins no literal. -/
theorem skipLiteral_of_isPunctuation {c : Char} (h : isPunctuation c = true) (hne : c ≠ '\'') (text : List Char) :
    skipLiteral (c :: text) = none := by
  have hall : ∀ c ∈ "~!@#$%^&*-=+|;:,<.>/?'".toList, c ≠ '\'' → c ∉ ['"', '\'', 'r', 'b', 'c'] ∧ c.isDigit = false :=
    List.all_iff_forall_prop.1 (by decide)
  obtain ⟨hletter, hdigit⟩ := hall c (of_decide_eq_true h) hne
  cases hskip : skipLiteral (c :: text) with
  | none => rfl
  | some rest =>
    rcases head_of_skipLiteral hskip with hm | hd
    · exact absurd hm hletter
    · rw [hdigit] at hd
      cases hd

/-- A punctuation character that is no apostrophe is joined to punctuation behind it, and to nothing else. -/
theorem piece_punct {c : Char} {text : List Char} (h : startsPunctuation (c :: text) = true) (hne : c ≠ '\'') :
    piece (c :: text) = some ([.leaf (.punct c (if startsPunctuation text then .joint else .alone))], text) := by
  have hliteral := skipLiteral_of_isPunctuation ((startsPunctuation_cons c text).1 h).1 hne text
  rw [piece_of_startsPunctuation h, leaf?, hliteral]
  simp [h, hne]

/-- What stands between an apostrophe and the next one is no lifetime's name. -/
theorem startsLifetime_of_single (c : Char) (text : List Char) : startsLifetime (c :: '\'' :: text) = false := by
  have hraw : ¬['r', '#'] <+: c :: '\'' :: text := by
    rintro ⟨more, heq⟩
    cases heq
  have hquote : isIdentifierContinue '\'' = false := by decide
  unfold startsLifetime
  rw [splitIdentifier_of_not_raw hraw, splitWord]
  by_cases hc : isIdentifierStart c = true
  · simp [hc, hquote]
  · simp [hc]

/-- An apostrophe before the name of a lifetime begins no character literal. -/
theorem skipLiteral_of_startsLifetime {text : List Char} (h : startsLifetime text = true) :
    skipLiteral ('\'' :: text) = none := by
  have hname : ∃ c behind, text = c :: behind ∧ isIdentifierStart c = true := by
    cases hsplit : splitIdentifier text with
    | none =>
      rw [startsLifetime, hsplit] at h
      cases h
    | some found =>
      obtain ⟨c, tail, hname, hc, -⟩ := exists_of_splitIdentifier hsplit
      have htext := eq_append_of_splitIdentifier hsplit
      rw [hname] at htext
      exact ⟨c, tail ++ found.2, htext, hc⟩
  obtain ⟨c, behind, rfl, hc⟩ := hname
  have hbackslash : c ≠ '\\' := by
    rintro rfl
    exact absurd hc (by decide)
  have hsingle : StringLiteral.readSingle StringLiteral.texts (c :: behind) = none := by
    cases behind with
    | nil => simp [StringLiteral.readSingle, StringLiteral.texts]
    | cons d behind =>
      have hquote : d ≠ '\'' := by
        rintro rfl
        rw [startsLifetime_of_single] at h
        cases h
      simp [StringLiteral.readSingle, StringLiteral.texts, hquote]
  rw [skipLiteral, StringLiteral.skip, hsingle, skip_of_not_isDigit (by decide)]
  rfl

/-- It is joined to the name. -/
theorem piece_apostrophe {text : List Char} (h : startsLifetime text = true) :
    piece ('\'' :: text) = some ([.leaf (.punct '\'' .joint)], text) := by
  have hstart : startsPunctuation ('\'' :: text) = true := rfl
  rw [piece_of_startsPunctuation hstart, leaf?, skipLiteral_of_startsLifetime h]
  simp [hstart, h]

end Lexeme

end PrivateLog
