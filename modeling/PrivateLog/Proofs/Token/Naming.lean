import PrivateLog.Proofs.Token.Places

/-!
# How identifiers are written

An identifier of a source text is a word, or a word behind the mark of raw identifiers (`IsWritten`), and a word holds no `#`.
So the mark stands at most once, and only in front. This holds of every identifier among the tokens of a text
(`Token.isWritten_of_locate?`), because it holds of each that is scanned (`Lexeme.isWritten_of_splitIdentifier`).
-/

namespace PrivateLog

/-- The name is a word, or a word behind the mark of raw identifiers. -/
def IsWritten (name : String) : Prop :=
  ∃ word : List Char, '#' ∉ word ∧ (name.toList = word ∨ name.toList = 'r' :: '#' :: word)

namespace Lexeme

open Text

/-- A word is a character that may begin one, and characters that may follow. -/
theorem exists_of_splitWord {text word rest : List Char} (h : splitWord text = some (word, rest)) :
    ∃ c tail, word = c :: tail ∧ isIdentifierStart c = true ∧ ∀ d ∈ tail, isIdentifierContinue d = true := by
  cases text with
  | nil => cases h
  | cons c text =>
    rw [splitWord] at h
    split at h
    · rename_i hc
      cases h
      exact ⟨c, _, rfl, hc, List.all_eq_true.1 List.all_takeWhile⟩
    · cases h

/-- So all of them are characters of identifiers. -/
theorem isIdentifierContinue_of_splitWord {text word rest : List Char} (h : splitWord text = some (word, rest)) :
    ∀ c ∈ word, isIdentifierContinue c = true := by
  obtain ⟨c, tail, rfl, hc, htail⟩ := exists_of_splitWord h
  exact List.forall_mem_cons.2 ⟨isIdentifierContinue_of_isIdentifierStart hc, htail⟩

/-- A word holds no other characters, such as the mark of raw identifiers or quotes. -/
theorem not_mem_of_splitWord {text word rest : List Char} (h : splitWord text = some (word, rest)) {c : Char}
    (hc : isIdentifierContinue c = false) : c ∉ word := by
  intro hm
  rw [isIdentifierContinue_of_splitWord h c hm] at hc
  cases hc

/-- A word is not empty. -/
theorem ne_nil_of_splitWord {text word rest : List Char} (h : splitWord text = some (word, rest)) : word ≠ [] := by
  obtain ⟨c, tail, rfl, -⟩ := exists_of_splitWord h
  exact List.cons_ne_nil c tail

/-- An identifier is a word, or one behind the mark of raw identifiers. -/
theorem exists_word_of_splitIdentifier {text rest : List Char} {name : String}
    (h : splitIdentifier text = some (name, rest)) :
    ∃ front word, splitWord front = some (word, rest) ∧
      (name.toList = word ∨ name.toList = 'r' :: '#' :: word ∧ String.ofList word ∉ neverRaw) := by
  unfold splitIdentifier at h
  split at h <;> obtain ⟨⟨word, behind⟩, hword, h⟩ := Option.bind_eq_some_iff.1 h
  · obtain ⟨passed, hraw, h⟩ := Option.bind_eq_some_iff.1 h
    cases h
    exact ⟨_, word, hword, Or.inr ⟨String.toList_ofList .., (Option.guard_eq_some' passed).1 hraw⟩⟩
  · cases h
    exact ⟨_, word, hword, Or.inl (String.toList_ofList ..)⟩

/-- So it is not empty. -/
theorem ne_nil_of_splitIdentifier {text rest : List Char} {name : String} (h : splitIdentifier text = some (name, rest)) :
    name.toList ≠ [] := by
  obtain ⟨front, word, hword, hname | ⟨hname, -⟩⟩ := exists_word_of_splitIdentifier h
  · rw [hname]
    exact ne_nil_of_splitWord hword
  · rw [hname]
    exact List.cons_ne_nil _ _

/-- An identifier that stands at the beginning of a text is written as one. -/
theorem isWritten_of_splitIdentifier {text rest : List Char} {name : String}
    (h : splitIdentifier text = some (name, rest)) : IsWritten name := by
  obtain ⟨front, word, hword, hname⟩ := exists_word_of_splitIdentifier h
  exact ⟨word, not_mem_of_splitWord hword (by decide), hname.imp_right And.left⟩

/-- A token without parts that is an identifier is what stands there as an identifier. -/
theorem splitIdentifier_of_leaf? {text rest : List Char} {name : String} (h : leaf? text = some (.ident name, rest)) :
    splitIdentifier text = some (name, rest) := by
  unfold leaf? at h
  split at h
  · cases h
  · split at h
    · cases h
    · split at h
      · split at h
        · split at h <;> cases h
        · cases h
      · split at h
        · cases h
        · obtain ⟨⟨name', behind⟩, hname, h⟩ := Option.bind_eq_some_iff.1 h
          cases h
          exact hname

end Lexeme

namespace Token

/-- An identifier that stands in a text is one at the beginning of what stands there. -/
theorem StandsIn.exists_splitIdentifier {source : List Char} {name : String} {span : Span}
    (h : StandsIn source ⟨.ident name, span⟩) : ∃ text rest, Lexeme.splitIdentifier text = some (name, rest) := by
  cases h with
  | leaf _ hleaf => exact ⟨_, _, Lexeme.splitIdentifier_of_leaf? hleaf⟩

/-- Every identifier among the tokens of a text is written as one. -/
theorem isWritten_of_locate? {text : List Char} {tokens : List (Located Token)} (h : locate? text = some tokens)
    {name : String} {span : Span} (hm : ⟨.ident name, span⟩ ∈ tokens) : IsWritten name := by
  obtain ⟨before, rest, hname⟩ := (standsIn_of_locate? h _ hm).exists_splitIdentifier
  exact Lexeme.isWritten_of_splitIdentifier hname

end Token

end PrivateLog
