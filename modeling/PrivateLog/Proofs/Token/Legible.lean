import PrivateLog.Proofs.Token.Ends
import PrivateLog.Proofs.Token.Literal

/-!
# Legible lexemes

A lexeme is legible before others if it is found again in what is written for them: an identifier and a literal by
themselves, a punctuation character only if it may be joined to what it is joined to (`Stands`). Whatever is scanned is
legible (`Lexeme.legible_of_scans`), documentation included, and so are the tokens of a text (`Token.legible_of_read?`), which
have the lexemes that they are built of (`Token.lexemesAll_of_nest`). Legible tokens may be put in a row, taken out of a group
and put into one.
-/

namespace PrivateLog

open Text

namespace Lexeme

/-! ## What stands where -/

/-- The tokens without parts that stand at the beginning of a text. -/
inductive IsLeaf : List Char → List Char → Token → Prop where
  | literal {text rest : List Char} : skipLiteral (text ++ rest) = some rest →
      IsLeaf (text ++ rest) rest (.literal (String.ofList text))
  | apostrophe {rest : List Char} : startsLifetime rest = true → IsLeaf ('\'' :: rest) rest (.punct '\'' .joint)
  | punct {c : Char} {rest : List Char} : startsPunctuation (c :: rest) = true → c ≠ '\'' →
      IsLeaf (c :: rest) rest (.punct c (if startsPunctuation rest then .joint else .alone))
  | ident {text rest : List Char} {name : String} : splitIdentifier text = some (name, rest) →
      IsLeaf text rest (.ident name)

/-- There are no others. -/
theorem isLeaf_of_leaf? {text rest : List Char} {token : Token} (h : leaf? text = some (token, rest)) :
    IsLeaf text rest token := by
  unfold leaf? at h
  split at h
  · rename_i hliteral
    cases h
    obtain ⟨written, rfl⟩ := (suffix_of_skipLiteral hliteral).trans (List.tail_suffix text)
    simpa using IsLeaf.literal hliteral
  · split at h
    · cases h
    · split at h
      · rename_i hstart
        split at h
        · rename_i hapostrophe
          subst hapostrophe
          split at h <;> cases h
          rename_i hlifetime
          exact .apostrophe hlifetime
        · rename_i hne
          cases h
          exact .punct hstart hne
      · split at h
        · cases h
        · obtain ⟨⟨name, behind⟩, hname, h⟩ := Option.bind_eq_some_iff.1 h
          cases h
          exact .ident hname

/-- A token without parts is written with a character at least. -/
theorem write_ne_nil_of_leaf? {text rest : List Char} {token : Token} (h : leaf? text = some (token, rest)) :
    token.write ≠ [] := by
  intro hnil
  have htext := eq_write_append_of_leaf? h
  rw [hnil, List.nil_append] at htext
  subst htext
  obtain rfl := @Number.eq_nil_of_suffix_tail text [] (suffix_of_leaf? h)
  cases h

/-- Where the name of a lifetime stands an identifier begins. -/
theorem exists_of_startsLifetime {text : List Char} (h : startsLifetime text = true) :
    ∃ c behind, text = c :: behind ∧ isIdentifierStart c = true := by
  cases hsplit : splitIdentifier text with
  | none =>
    rw [startsLifetime, hsplit] at h
    cases h
  | some found =>
    obtain ⟨c, tail, hname, hc, -⟩ := exists_of_splitIdentifier hsplit
    have htext := eq_append_of_splitIdentifier hsplit
    rw [hname] at htext
    exact ⟨c, tail ++ found.2, htext, hc⟩

/-- A literal that stands where an identifier begins holds a quote. -/
theorem isBounded_of_skipLiteral {text rest : List Char} (h : skipLiteral (text ++ rest) = some rest)
    (hlifetime : startsLifetime (text ++ rest) = true) : IsBounded text rest := by
  obtain ⟨c, behind, heq, hc⟩ := exists_of_startsLifetime hlifetime
  unfold skipLiteral at h
  split at h
  · rename_i after hskip
    obtain ⟨used, hused, ⟨quote, hquote, hm⟩, -⟩ := StringLiteral.exists_used_of_skip hskip
    obtain ⟨more, rfl⟩ := Number.exists_append_of_skipSuffix (Option.some.inj h)
    rw [← List.append_assoc] at hused
    rw [List.append_cancel_right hused]
    simp only [List.mem_cons, List.not_mem_nil, or_false] at hquote
    rcases hquote with rfl | rfl
    · exact Or.inr (Or.inl (List.mem_append_left more hm))
    · exact Or.inr (Or.inr (List.mem_append_left more hm))
  · rw [heq, skip_of_not_isDigit (not_isDigit_of_isIdentifierStart hc)] at h
    cases h

/-! ## What can be read back -/

/-- Whether a punctuation character may be joined to a token: both together begin no comment, and behind an apostrophe the
name of a lifetime stands. -/
def Joins (c : Char) (token : Token) : Prop :=
  startsPunctuation (c :: token.write) = true ∧
    if c = '\'' then startsLifetime token.write = true else startsPunctuation token.write = true

/-- A lexeme that is found again in what is written for it, with `more` behind it. -/
inductive Stands (more : List Lexeme) : Lexeme → Prop where
  | ident {name : String} : splitIdentifier name.toList = some (name, []) → Stands more (.leaf (.ident name))
  | literal {text : String} {rest : List Char} : skipLiteral (text.toList ++ rest) = some rest →
      Stands more (.leaf (.literal text))
  | alone {c : Char} : isPunctuation c = true → c ≠ '\'' → Stands more (.leaf (.punct c .alone))
  | joint {c : Char} {token : Token} {behind : List Lexeme} : more = .leaf token :: behind → Joins c token →
      Stands more (.leaf (.punct c .joint))
  | opening (delimiter : Delimiter) : Stands more (.opening delimiter)
  | closing (delimiter : Delimiter) : Stands more (.closing delimiter)

/-- Lexemes that are found again in what is written for them. -/
def Legible : List Lexeme → Prop
  | [] => True
  | lexeme :: more => Stands more lexeme ∧ Legible more

/-- A lexeme is found again with more behind it. -/
theorem Stands.append {more : List Lexeme} {lexeme : Lexeme} (h : Stands more lexeme) (others : List Lexeme) :
    Stands (more ++ others) lexeme := by
  cases h with
  | ident h => exact .ident h
  | literal h => exact .literal h
  | alone h hne => exact .alone h hne
  | joint h hjoins => exact .joint (by rw [h, List.cons_append]) hjoins
  | opening => exact .opening _
  | closing => exact .closing _

/-- Legible lexemes behind legible lexemes are legible. -/
theorem Legible.append {a b : List Lexeme} (ha : Legible a) (hb : Legible b) : Legible (a ++ b) := by
  induction a with
  | nil => exact hb
  | cons lexeme a ih => exact ⟨ha.1.append b, ih ha.2⟩

/-- What legible lexemes end in is legible. -/
theorem Legible.of_append {a b : List Lexeme} (h : Legible (a ++ b)) : Legible b := by
  induction a with
  | nil => exact h
  | cons lexeme a ih => exact ih h.2

/-- So is what stands before a closing bracket: nothing is joined to that. -/
theorem Legible.of_append_closing {a b : List Lexeme} {delimiter : Delimiter} (h : Legible (a ++ .closing delimiter :: b)) :
    Legible a := by
  induction a with
  | nil => trivial
  | cons lexeme a ih =>
    obtain ⟨hstands, hmore⟩ := h
    refine ⟨?_, ih hmore⟩
    cases hstands with
    | ident h => exact .ident h
    | literal h => exact .literal h
    | alone h hne => exact .alone h hne
    | joint heq hjoins =>
      cases a with
      | nil => cases heq
      | cons next a => exact .joint (congrArg (· :: a) (List.cons.inj heq).1) hjoins
    | opening => exact .opening _
    | closing => exact .closing _

/-! ## What is scanned -/

/-- A punctuation character is joined only to a token that it may be joined to. -/
theorem joins_of_leaf? {c : Char} {text rest : List Char} {token : Token} (h : leaf? text = some (token, rest))
    (hc : startsPunctuation (c :: text) = true)
    (hjoin : if c = '\'' then startsLifetime text = true else startsPunctuation text = true) : Joins c token := by
  have htext := eq_write_append_of_leaf? h
  have hne := write_ne_nil_of_leaf? h
  rw [htext, ← List.cons_append] at hc
  refine ⟨startsPunctuation_of_append (List.cons_ne_nil _ _) hc, ?_⟩
  split at hjoin
  · rename_i hapostrophe
    rw [if_pos hapostrophe]
    obtain ⟨d, behind, heq, hd⟩ := exists_of_startsLifetime hjoin
    cases isLeaf_of_leaf? h with
    | literal hliteral =>
      rw [Token.write, String.toList_ofList, ← (isBounded_of_skipLiteral hliteral hjoin).startsLifetime_append]
      exact hjoin
    | apostrophe =>
      cases heq
      exact absurd hd (by decide)
    | punct hstart =>
      cases heq
      rw [not_startsPunctuation_of_isIdentifierStart hd] at hstart
      cases hstart
    | ident hname => rw [Token.write, startsLifetime, splitIdentifier_self hname]
  · rename_i hapostrophe
    rw [if_neg hapostrophe]
    rw [htext] at hjoin
    exact startsPunctuation_of_append hne hjoin

/-- Where a token without parts stands, the first lexeme is that token. -/
theorem Scans.exists_leaf {text : List Char} {found : List Lexeme} (h : Scans text found) (hne : text ≠ [])
    (hpiece : piece text = (fun found => ([.leaf found.1], found.2)) <$> leaf? text) :
    ∃ token rest more, leaf? text = some (token, rest) ∧ found = .leaf token :: more := by
  obtain ⟨lexemes, rest, hfirst⟩ := h.exists_piece hne
  obtain ⟨more, rfl, -⟩ := h.of_piece hfirst
  rw [hpiece] at hfirst
  obtain ⟨⟨token, behind⟩, hleaf, heq⟩ := Option.map_eq_some_iff.1 hfirst
  cases heq
  exact ⟨token, behind, more, hleaf, rfl⟩

/-- What a text begins with is found again. -/
theorem Stands.of_leaf? {text rest : List Char} {token : Token} {more : List Lexeme} (h : leaf? text = some (token, rest))
    (hmore : Scans rest more) : Stands more (.leaf token) := by
  cases isLeaf_of_leaf? h with
  | literal hliteral => exact .literal (by rwa [String.toList_ofList])
  | ident hname => exact .ident (splitIdentifier_self hname)
  | apostrophe hlifetime =>
    obtain ⟨c, behind, rfl, hc⟩ := exists_of_startsLifetime hlifetime
    obtain ⟨token, after, others, hleaf, rfl⟩ := hmore.exists_leaf (List.cons_ne_nil c behind)
      (piece_of_isIdentifierStart hc behind)
    exact .joint rfl (joins_of_leaf? hleaf rfl (by rwa [if_pos rfl]))
  | @punct c _ hstart hne =>
    split
    · rename_i hjoint
      cases rest with
      | nil => cases hjoint
      | cons d behind =>
        obtain ⟨token, after, others, hleaf, rfl⟩ := hmore.exists_leaf (List.cons_ne_nil d behind)
          (piece_of_startsPunctuation hjoint)
        exact .joint rfl (joins_of_leaf? hleaf hstart (by rwa [if_neg hne]))
    · exact .alone ((startsPunctuation_cons c rest).1 hstart).1 hne

/-- The attribute that documentation stands for is legible. -/
theorem legible_of_documentation {inner : Bool} {body : List Char} {lexemes : List Lexeme}
    (h : documentation inner body = some lexemes) : Legible lexemes := by
  obtain ⟨-, -, h⟩ := Option.bind_eq_some_iff.1 h
  cases h
  have hname : splitIdentifier "doc".toList = some ("doc", []) := by decide +kernel
  have hliteral : skipLiteral ((String.ofList (literal body)).toList ++ []) = some [] := by
    rw [String.toList_ofList, literal, List.append_nil, skipLiteral, StringLiteral.skip,
      StringLiteral.readQuoted_literalBody]
    rfl
  have hbody : Legible [.opening .bracket, .leaf (.ident "doc"), .leaf (.punct '=' .alone),
      .leaf (.literal (String.ofList (literal body))), .closing .bracket] :=
    ⟨.opening _, .ident hname, .alone (by decide) (by decide), .literal hliteral, .closing _, trivial⟩
  cases inner with
  | true => exact ⟨.alone (by decide) (by decide), .alone (by decide) (by decide), hbody⟩
  | false => exact ⟨.alone (by decide) (by decide), hbody⟩

/-- The lexemes of a text are legible. -/
theorem legible_of_scans {text : List Char} {found : List Lexeme} (h : Scans text found) : Legible found := by
  induction h with
  | nil => trivial
  | cons hpiece hmore ih =>
    cases (yields_of_piece hpiece).2 with
    | gap => exact ih
    | documentation hdocumentation => exact (legible_of_documentation hdocumentation).append ih
    | leaf hleaf => exact ⟨.of_leaf? hleaf hmore, ih⟩
    | opening => exact ⟨.opening _, ih⟩
    | closing => exact ⟨.closing _, ih⟩

end Lexeme

/-! ## Tokens -/

namespace Token

mutual

/-- The lexemes of a token: those in a group stand between its brackets. -/
def lexemes : Token → List Lexeme
  | .group delimiter body => .opening delimiter :: (lexemesAll body ++ [.closing delimiter])
  | token => [.leaf token]

/-- The lexemes of tokens in a row. -/
def lexemesAll : List Token → List Lexeme
  | [] => []
  | token :: tokens => lexemes token ++ lexemesAll tokens

end

/-- The lexemes of two lists of tokens stand in a row. -/
theorem lexemesAll_append (a b : List Token) : lexemesAll (a ++ b) = lexemesAll a ++ lexemesAll b := by
  induction a with
  | nil => simp [lexemesAll]
  | cons token a ih => simp [lexemesAll, ih]

/-- A group is an opening bracket, what it holds, and a closing bracket. -/
theorem lexemesAll_group (delimiter : Delimiter) (body tokens : List Token) :
    lexemesAll (.group delimiter body :: tokens) =
      .opening delimiter :: (lexemesAll body ++ .closing delimiter :: lexemesAll tokens) := by
  simp [lexemesAll, lexemes]

/-- The lexemes that were read: what stands before the open groups and in them. -/
def lexemesRead : List OpenGroup → List (Located Token) → List Lexeme
  | [], done => lexemesAll (done.reverse.map (·.value))
  | innermost :: pending, done =>
    lexemesRead pending innermost.before ++ .opening innermost.delimiter :: lexemesAll (done.reverse.map (·.value))

/-- One more token adds its lexemes. -/
theorem lexemesRead_cons (pending : List OpenGroup) (token : Located Token) (done : List (Located Token)) :
    lexemesRead pending (token :: done) = lexemesRead pending done ++ lexemes token.value := by
  cases pending <;> simp [lexemesRead, lexemesAll_append, lexemesAll]

/-- The tokens that are built have the lexemes that they are built of. -/
theorem lexemesAll_of_nest {pending : List OpenGroup} {done tokens : List (Located Token)}
    {lexemes : List (Located Lexeme)} (hlegible : Lexeme.Legible (lexemes.map (·.value)))
    (h : nest pending done lexemes = some tokens) :
    lexemesAll (tokens.map (·.value)) = lexemesRead pending done ++ lexemes.map (·.value) := by
  induction lexemes generalizing pending done with
  | nil =>
    cases pending with
    | nil =>
      cases h
      simp [lexemesRead]
    | cons innermost pending => cases h
  | cons located lexemes ih =>
    obtain ⟨lexeme, span⟩ := located
    obtain ⟨hstands, hmore⟩ := hlegible
    cases lexeme with
    | leaf token =>
      have htoken : Token.lexemes token = [.leaf token] := by
        cases hstands <;> rfl
      rw [ih hmore h, lexemesRead_cons, htoken]
      simp
    | opening delimiter =>
      rw [ih hmore h]
      simp [lexemesRead, lexemesAll]
    | closing delimiter =>
      cases pending with
      | nil => cases h
      | cons innermost pending =>
        rw [nest] at h
        split at h
        · rename_i hdelimiter
          rw [ih hmore h, lexemesRead_cons, ← hdelimiter]
          simp [lexemesRead, Token.lexemes]
        · cases h

/-- Tokens are legible if their lexemes are. -/
def Legible (tokens : List Token) : Prop :=
  Lexeme.Legible (lexemesAll tokens)

/-- Legible tokens behind legible tokens are legible. -/
theorem Legible.append {a b : List Token} (ha : Legible a) (hb : Legible b) : Legible (a ++ b) := by
  rw [Legible, lexemesAll_append]
  exact Lexeme.Legible.append ha hb

/-- What legible tokens end in is legible. -/
theorem Legible.of_append {a b : List Token} (h : Legible (a ++ b)) : Legible b := by
  rw [Legible, lexemesAll_append] at h
  exact Lexeme.Legible.of_append h

/-- A group is legible if what it holds is. -/
theorem legible_group {delimiter : Delimiter} {body tokens : List Token} :
    Legible (.group delimiter body :: tokens) ↔ Legible body ∧ Legible tokens := by
  rw [Legible, lexemesAll_group]
  constructor
  · intro h
    exact ⟨Lexeme.Legible.of_append_closing h.2, (Lexeme.Legible.of_append h.2).2⟩
  · intro h
    exact ⟨.opening _, Lexeme.Legible.append h.1 ⟨.closing _, h.2⟩⟩

/-- A token that is not joined to the next one is legible alone. -/
theorem Legible.head {token : Token} {tokens : List Token} (h : Legible (token :: tokens))
    (hjoint : token.isJoint = false) : Legible [token] := by
  cases token with
  | group delimiter body => exact legible_group.2 ⟨(legible_group.1 h).1, trivial⟩
  | ident name =>
    cases h.1 with
    | ident h => exact ⟨.ident h, trivial⟩
  | literal text =>
    cases h.1 with
    | literal h => exact ⟨.literal h, trivial⟩
  | punct symbol spacing =>
    cases h.1 with
    | alone hc hne => exact ⟨.alone hc hne, trivial⟩
    | joint => cases hjoint

/-- The tokens of a text are legible. -/
theorem legible_of_read? {text : List Char} {tokens : List Token} (h : read? text = some tokens) : Legible tokens := by
  obtain ⟨located, hlocate, rfl⟩ := Option.map_eq_some_iff.1 h
  obtain ⟨found, hscan, hnest⟩ := Option.bind_eq_some_iff.1 hlocate
  have hscans : ∃ text, Lexeme.Scans text (found.map (·.value)) := by
    unfold Lexeme.scan at hscan
    split at hscan
    · exact ⟨_, Lexeme.scans_of_scanWithin hscan⟩
    · exact ⟨_, Lexeme.scans_of_scanWithin hscan⟩
  obtain ⟨written, hscans⟩ := hscans
  have hlegible := Lexeme.legible_of_scans hscans
  rw [Legible, lexemesAll_of_nest hlegible hnest]
  exact hlegible

end Token

end PrivateLog
