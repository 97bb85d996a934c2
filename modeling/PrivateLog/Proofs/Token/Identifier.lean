import PrivateLog.Proofs.Token.Naming
import Mathlib.Data.List.TakeWhile

/-!
# Identifiers are read as themselves

What stands in a source as an identifier is that identifier again when it is read alone (`Token.read?_of_splitIdentifier`).
The characters behind its first one are those that may go on with an identifier, and the first one is neither a digit nor
punctuation, so that nothing else can stand there.
-/

namespace PrivateLog

open Text

namespace Lexeme

/-! ## The first character -/

/-- No digit begins an identifier. -/
theorem not_isDigit_of_isIdentifierStart {c : Char} (h : isIdentifierStart c = true) : c.isDigit = false := by
  have hall : ∀ n < 58, 48 ≤ n → isIdentifierStart (Char.ofNat n) = false := by
    decide +kernel
  cases hd : c.isDigit with
  | false => rfl
  | true =>
    obtain ⟨hlow, hhigh⟩ := Char.isDigit_iff_toNat.1 hd
    have hc := hall c.toNat (Nat.lt_succ_of_le hhigh) hlow
    rw [Char.ofNat_toNat, h] at hc
    cases hc

/-- No punctuation begins one. -/
theorem not_startsPunctuation_of_isIdentifierStart {c : Char} (h : isIdentifierStart c = true) (text : List Char) :
    startsPunctuation (c :: text) = false := by
  cases hp : isPunctuation c with
  | true => exact absurd (of_decide_eq_true hp) (not_mem_of_all (by decide +kernel) h)
  | false =>
    unfold startsPunctuation
    split
    · rfl
    · rfl
    · rename_i heq
      cases heq
      exact hp
    · rfl

/-- Where one begins there is no bracket, gap or comment. -/
theorem piece_of_isIdentifierStart {c : Char} (h : isIdentifierStart c = true) (text : List Char) :
    piece (c :: text) = (fun found => ([.leaf found.1], found.2)) <$> leaf? (c :: text) := by
  have hbracket : c ∉ delimiters := not_mem_of_all (by decide +kernel) h
  have hgap : isGap c = false := by
    cases hg : isGap c with
    | false => rfl
    | true =>
      have hcontinue := isIdentifierContinue_of_isIdentifierStart h
      rw [not_isIdentifierContinue_of_isGap hg] at hcontinue
      cases hcontinue
  rw [piece_cons hbracket, hgap]
  rfl

/-! ## The characters of an identifier -/

/-- A text without quotes holds no raw text. -/
theorem readRaw_of_not_mem {text : List Char} (h : '"' ∉ text) (alphabet : StringLiteral.Alphabet) :
    StringLiteral.readRaw alphabet text = none := by
  unfold StringLiteral.readRaw
  simp only
  split
  · rename_i behind hquote
    exact absurd (List.mem_of_mem_drop (hquote ▸ List.mem_cons_self)) h
  · rfl

/-- Nor any other literal between quotes. -/
theorem skip_of_not_mem {text : List Char} (hquote : '"' ∉ text) (hsingle : '\'' ∉ text) :
    StringLiteral.skip text = none := by
  have hraw : ∀ {front behind : List Char} (alphabet : StringLiteral.Alphabet), text = front ++ behind →
      StringLiteral.readRaw alphabet behind = none := by
    rintro front behind alphabet rfl
    exact readRaw_of_not_mem (fun hm => hquote (List.mem_append_right front hm)) alphabet
  unfold StringLiteral.skip
  split
  case h_1 => exact absurd List.mem_cons_self hquote
  case h_2 behind =>
    rw [@hraw ['r'] behind _ rfl]
    rfl
  case h_3 => exact absurd (List.mem_cons_of_mem _ List.mem_cons_self) hquote
  case h_4 behind =>
    rw [@hraw ['b', 'r'] behind _ rfl]
    rfl
  case h_5 => exact absurd (List.mem_cons_of_mem _ List.mem_cons_self) hquote
  case h_6 behind =>
    rw [@hraw ['c', 'r'] behind _ rfl]
    rfl
  case h_7 => exact absurd (List.mem_cons_of_mem _ List.mem_cons_self) hsingle
  case h_8 => exact absurd List.mem_cons_self hsingle
  case h_9 => rfl

/-- A word is split off from itself whole. -/
theorem splitWord_self {text word rest : List Char} (h : splitWord text = some (word, rest)) :
    splitWord word = some (word, []) := by
  obtain ⟨c, tail, rfl, hc, htail⟩ := exists_of_splitWord h
  rw [splitWord, if_pos hc, List.takeWhile_eq_self_iff.2 htail, List.dropWhile_eq_nil_iff.2 htail]

/-- So is an identifier. -/
theorem splitIdentifier_self {text rest : List Char} {name : String} (h : splitIdentifier text = some (name, rest)) :
    splitIdentifier name.toList = some (name, []) := by
  obtain ⟨front, word, hword, hname | ⟨hname, hraw⟩⟩ := exists_word_of_splitIdentifier h
  · have hmark : '#' ∉ word := not_mem_of_splitWord hword (by decide)
    have hself := splitWord_self hword
    rw [hname]
    unfold splitIdentifier
    split
    · exact absurd (List.mem_cons_of_mem _ List.mem_cons_self) hmark
    · rw [hself, ← hname]
      simp
  · rw [hname, splitIdentifier, splitWord_self hword]
    refine Option.bind_eq_some_iff.2 ⟨_, rfl, Option.bind_eq_some_iff.2 ⟨(), (Option.guard_eq_some' ()).2 hraw, ?_⟩⟩
    rw [← hname, String.ofList_toList]
    rfl

/-- An identifier begins with a character that begins one, and holds no quotes. -/
theorem exists_of_splitIdentifier {text rest : List Char} {name : String} (h : splitIdentifier text = some (name, rest)) :
    ∃ c tail, name.toList = c :: tail ∧ isIdentifierStart c = true ∧ '"' ∉ c :: tail ∧ '\'' ∉ c :: tail := by
  obtain ⟨front, word, hword, hname⟩ := exists_word_of_splitIdentifier h
  have hquote : '"' ∉ word := not_mem_of_splitWord hword (by decide)
  have hsingle : '\'' ∉ word := not_mem_of_splitWord hword (by decide)
  rcases hname with hname | ⟨hname, -⟩
  · obtain ⟨c, tail, rfl, hc, -⟩ := exists_of_splitWord hword
    exact ⟨c, tail, hname, hc, hquote, hsingle⟩
  · refine ⟨'r', '#' :: word, hname, by decide, ?_, ?_⟩
    · simpa using hquote
    · simpa using hsingle

/-- No identifier holds a blank. -/
theorem not_isBlank_of_splitIdentifier {text rest : List Char} {name : String}
    (h : splitIdentifier text = some (name, rest)) : ∀ c ∈ name.toList, isBlank c = false := by
  obtain ⟨front, word, hword, hname⟩ := exists_word_of_splitIdentifier h
  have hall : ∀ c ∈ word, isBlank c = false := by
    intro c hm
    cases hblank : isBlank c with
    | false => rfl
    | true => exact absurd hm (not_mem_of_splitWord hword (not_isIdentifierContinue_of_isGap (isGap_of_isBlank hblank)))
  rcases hname with hname | ⟨hname, -⟩
  · rwa [hname]
  · rw [hname]
    exact List.forall_mem_cons.2 ⟨by decide, List.forall_mem_cons.2 ⟨by decide, hall⟩⟩

/-- No identifier begins as only a literal may. -/
theorem startsLiteral_of_splitIdentifier {text rest : List Char} {name : String}
    (h : splitIdentifier text = some (name, rest)) : startsLiteral name.toList = false := by
  have hstarts : ∀ start ∈ literalStarts, '"' ∈ start.toList ∨ '\'' ∈ start.toList ∨
      start.toList ∈ [['r', '#', '#'], ['b', 'r', '#'], ['c', 'r', '#']] := by
    decide
  obtain ⟨c, tail, htext, -, hquote, hsingle⟩ := exists_of_splitIdentifier h
  obtain ⟨front, word, hword, hname⟩ := exists_word_of_splitIdentifier h
  have hmark : '#' ∉ word := not_mem_of_splitWord hword (by decide)
  rw [startsLiteral, List.any_eq_false]
  intro start hm hlead
  rw [List.isPrefixOf_iff_prefix] at hlead
  rw [← htext] at hquote hsingle
  rcases hstarts start hm with hs | hs | hs
  · exact hquote (hlead.subset hs)
  · exact hsingle (hlead.subset hs)
  · rcases hname with hname | ⟨hname, -⟩
    · have hall : ∀ start ∈ [['r', '#', '#'], ['b', 'r', '#'], ['c', 'r', '#']], '#' ∈ start := by decide
      rw [hname] at hlead
      exact hmark (hlead.subset (hall _ hs))
    · rw [hname] at hlead
      simp only [List.mem_cons, List.not_mem_nil, or_false] at hs
      rcases hs with hs | hs | hs <;> rw [hs] at hlead
      · obtain ⟨behind, hbehind⟩ := hlead
        cases hbehind
        exact hmark List.mem_cons_self
      · obtain ⟨behind, hbehind⟩ := hlead
        cases hbehind
      · obtain ⟨behind, hbehind⟩ := hlead
        cases hbehind

/-- An identifier is a token of its own. -/
theorem leaf?_self {text rest : List Char} {name : String} (h : splitIdentifier text = some (name, rest)) :
    leaf? name.toList = some (.ident name, []) := by
  obtain ⟨c, tail, hname, hc, hquote, hsingle⟩ := exists_of_splitIdentifier h
  have hliteral : skipLiteral (c :: tail) = none := by
    rw [skipLiteral, skip_of_not_mem hquote hsingle, skip_of_not_isDigit (not_isDigit_of_isIdentifierStart hc)]
  have hstart := startsLiteral_of_splitIdentifier h
  have hself := splitIdentifier_self h
  rw [hname] at hstart hself ⊢
  rw [leaf?, hliteral]
  simp [not_startsPunctuation_of_isIdentifierStart hc, hstart, hself]

end Lexeme

namespace Token

/-- An identifier is read as itself. -/
theorem read?_of_splitIdentifier {text rest : List Char} {name : String}
    (h : Lexeme.splitIdentifier text = some (name, rest)) : read? name.toList = some [.ident name] := by
  obtain ⟨c, tail, hname, hc, -⟩ := Lexeme.exists_of_splitIdentifier h
  have hleaf := Lexeme.leaf?_self h
  have hpiece : Lexeme.piece name.toList = some ([.leaf (.ident name)], []) := by
    rw [hname] at hleaf ⊢
    rw [Lexeme.piece_of_isIdentifierStart hc, hleaf]
    rfl
  have hscan : Lexeme.scan name.toList = some [⟨.leaf (.ident name), ⟨0, byteLength name.toList⟩⟩] := by
    rw [hname] at hpiece ⊢
    unfold Lexeme.scan
    split
    · rename_i heq
      cases heq
      have hmark : isIdentifierStart '\uFEFF' = false := by decide +kernel
      rw [hmark] at hc
      cases hc
    · refine Option.bind_eq_some_iff.2 ⟨_, hpiece, Option.bind_eq_some_iff.2 ⟨[], ?_, ?_⟩⟩
      · cases tail <;> rfl
      · simp
  rw [read?, locate?, hscan]
  rfl

end Token

end PrivateLog
