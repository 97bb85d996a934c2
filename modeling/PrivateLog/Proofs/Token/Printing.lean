import PrivateLog.Proofs.Token.Legible

/-!
# Printed tokens are read back

Legible tokens that are written are read as the same tokens (`Token.read?_writeAll`). What stands behind a token is a blank, a
closing bracket, or the token that it is joined to, so each token is the first piece of what is written for it and for those
behind it (`Lexeme.exists_piece_writeAll`), and the brackets of groups are found where they were written.
-/

namespace PrivateLog

open Text

namespace Token

/-! ## Lists of tokens -/

/-- What is true without tokens, and stays true with one more in front, be it a group of tokens of which it is true, is true
of all lists of tokens. -/
theorem list_induction {motive : List Token → Prop} (nil : motive [])
    (leaf : ∀ token tokens, lexemes token = [.leaf token] → motive tokens → motive (token :: tokens))
    (group : ∀ delimiter body tokens, motive body → motive tokens → motive (.group delimiter body :: tokens)) :
    ∀ tokens, motive tokens
  | [] => nil
  | .ident name :: tokens => leaf _ tokens rfl (list_induction nil leaf group tokens)
  | .punct symbol spacing :: tokens => leaf _ tokens rfl (list_induction nil leaf group tokens)
  | .literal text :: tokens => leaf _ tokens rfl (list_induction nil leaf group tokens)
  | .group delimiter body :: tokens =>
    group delimiter body tokens (list_induction nil leaf group body) (list_induction nil leaf group tokens)

/-- Lexemes that begin with a token without parts are those of tokens that begin with it. -/
theorem exists_of_lexemesAll_eq {tokens : List Token} {token : Token} {more : List Lexeme}
    (h : lexemesAll tokens = .leaf token :: more) : ∃ others, tokens = token :: others ∧ lexemesAll others = more := by
  cases tokens with
  | nil => cases h
  | cons first others =>
    cases first <;> cases h
    all_goals exact ⟨others, rfl, rfl⟩

end Token

namespace Lexeme

/-! ## What stands behind a token -/

/-- A token that another one may be joined to is written with a character at least. -/
theorem Joins.write_ne_nil {c : Char} {token : Token} (h : Joins c token) : token.write ≠ [] := by
  obtain ⟨-, hjoin⟩ := h
  intro hnil
  rw [hnil] at hjoin
  split at hjoin <;> cases hjoin

/-- Whatever is written behind them, the two begin no comment. -/
theorem Joins.startsPunctuation_append {c : Char} {token : Token} (h : Joins c token) (more : List Char) :
    startsPunctuation (c :: (token.write ++ more)) = true := by
  obtain ⟨d, written, hwrite⟩ := List.exists_cons_of_ne_nil h.write_ne_nil
  have hstart := h.1
  rw [hwrite] at hstart ⊢
  rwa [startsPunctuation_cons] at hstart ⊢

/-- Behind a token that is not joined to the next one stands a blank, or what is behind all tokens. -/
theorem exists_behind {token : Token} (htoken : token.isJoint = false) (tokens : List Token) {rest : List Char}
    (hrest : EndsToken rest) :
    ∃ behind, Token.writeAll (token :: tokens) ++ rest = token.write ++ behind ∧ EndsToken behind ∧
      ∀ found, Scans (Token.writeAll tokens ++ rest) found → Scans behind found := by
  cases tokens with
  | nil => exact ⟨rest, by rw [Token.writeAll_singleton], hrest, fun _ h => h⟩
  | cons next tokens =>
    refine ⟨' ' :: (Token.writeAll (next :: tokens) ++ rest), ?_, endsToken_cons (by decide) _, fun found h => ?_⟩
    · rw [Token.writeAll_cons_cons, htoken]
      simp
    · exact @Scans.cons _ _ [] found rfl h

/-- Behind a token that is joined to the next one that stands at once. -/
theorem writeAll_joint (c : Char) (tokens : List Token) (rest : List Char) :
    Token.writeAll (.punct c .joint :: tokens) ++ rest = c :: (Token.writeAll tokens ++ rest) := rfl

/-- Punctuation that is written first begins what is written. -/
theorem startsPunctuation_writeAll {token : Token} {tokens : List Token} {rest : List Char}
    (hstands : Stands (Token.lexemesAll tokens) (.leaf token)) (hrest : EndsToken rest)
    (hstart : startsPunctuation token.write = true) :
    startsPunctuation (Token.writeAll (token :: tokens) ++ rest) = true := by
  cases hjoint : token.isJoint with
  | false =>
    obtain ⟨behind, hwrite, hends, -⟩ := exists_behind hjoint tokens hrest
    rw [hwrite, startsPunctuation_append hends, hstart]
  | true =>
    cases hstands with
    | joint hmore hjoins =>
      obtain ⟨others, rfl, -⟩ := Token.exists_of_lexemesAll_eq hmore
      rw [writeAll_joint, Token.writeAll, List.append_assoc, List.append_assoc]
      exact hjoins.startsPunctuation_append _
    | _ => cases hjoint

/-- So does the name of a lifetime. -/
theorem startsLifetime_writeAll {token : Token} {tokens : List Token} {rest : List Char}
    (hstands : Stands (Token.lexemesAll tokens) (.leaf token)) (hrest : EndsToken rest)
    (hstart : startsLifetime token.write = true) :
    startsLifetime (Token.writeAll (token :: tokens) ++ rest) = true := by
  cases hjoint : token.isJoint with
  | false =>
    obtain ⟨behind, hwrite, hends, -⟩ := exists_behind hjoint tokens hrest
    rw [hwrite, IsBounded.startsLifetime_append (Or.inl hends), hstart]
  | true =>
    cases hstands with
    | @joint c _ _ hmore hjoins =>
      obtain ⟨d, behind, heq, hd⟩ := exists_of_startsLifetime hstart
      cases heq
      have hpunctuation := hjoins.startsPunctuation_append []
      rw [not_startsPunctuation_of_isIdentifierStart hd] at hpunctuation
      cases hpunctuation
    | _ => cases hjoint

/-! ## Scanning what is written -/

/-- A token without parts is the first piece of what is written for it and for the tokens behind it. -/
theorem exists_piece_writeAll {token : Token} {tokens : List Token} {rest : List Char}
    (h : Token.Legible tokens) (hstands : Stands (Token.lexemesAll tokens) (.leaf token)) (hrest : EndsToken rest) :
    ∃ behind, piece (Token.writeAll (token :: tokens) ++ rest) = some ([.leaf token], behind) ∧
      ∀ found, Scans (Token.writeAll tokens ++ rest) found → Scans behind found := by
  cases hjoint : token.isJoint with
  | false =>
    obtain ⟨behind, hwrite, hends, hscans⟩ := exists_behind hjoint tokens hrest
    refine ⟨behind, ?_, hscans⟩
    rw [hwrite]
    cases hstands with
    | ident hname => exact piece_ident hends hname
    | @literal text _ hliteral =>
      have hpiece := piece_literal hends hliteral
      rwa [String.ofList_toList] at hpiece
    | @alone c hc hne =>
      have hstart : startsPunctuation (c :: behind) = true := by
        rw [← List.singleton_append, startsPunctuation_append hends]
        exact (startsPunctuation_cons c []).2 ⟨hc, by simp⟩
      exact (piece_punct hstart hne).trans (by rw [startsPunctuation_of_endsToken hends]; rfl)
    | joint => cases hjoint
  | true =>
    cases hstands with
    | @joint c next more hmore hjoins =>
      obtain ⟨others, rfl, rfl⟩ := Token.exists_of_lexemesAll_eq hmore
      rw [Token.Legible, hmore] at h
      refine ⟨_, ?_, fun found hfound => hfound⟩
      rw [writeAll_joint]
      have hjoin := hjoins.2
      split at hjoin
      · rename_i hapostrophe
        subst hapostrophe
        exact piece_apostrophe (startsLifetime_writeAll h.1 hrest hjoin)
      · rename_i hapostrophe
        have hstart : startsPunctuation (c :: (Token.writeAll (next :: others) ++ rest)) = true := by
          rw [Token.writeAll, List.append_assoc, List.append_assoc]
          exact hjoins.startsPunctuation_append _
        rw [piece_punct hstart hapostrophe, startsPunctuation_writeAll h.1 hrest hjoin]
        rfl
    | _ => cases hjoint

/-- What is written before a group is scanned as its opening bracket. -/
theorem scans_opening (delimiter : Delimiter) (empty : Bool) {text : List Char} {found : List Lexeme}
    (h : Scans text found) : Scans ((Token.brackets delimiter empty).1 ++ text) (.opening delimiter :: found) := by
  cases delimiter with
  | parenthesis => exact @Scans.cons _ _ [_] found rfl h
  | bracket => exact @Scans.cons _ _ [_] found rfl h
  | brace => exact @Scans.cons _ _ [_] found rfl (@Scans.cons _ _ [] found rfl h)

/-- What is written behind it ends every token, and is scanned as its closing bracket. -/
theorem scans_closing (delimiter : Delimiter) (empty : Bool) {text : List Char} {found : List Lexeme}
    (h : Scans text found) :
    EndsToken ((Token.brackets delimiter empty).2 ++ text) ∧
      Scans ((Token.brackets delimiter empty).2 ++ text) (.closing delimiter :: found) := by
  cases delimiter with
  | parenthesis => exact ⟨endsToken_cons (by decide) _, @Scans.cons _ _ [_] found rfl h⟩
  | bracket => exact ⟨endsToken_cons (by decide) _, @Scans.cons _ _ [_] found rfl h⟩
  | brace =>
    have hbrace : Scans ('}' :: text) (.closing .brace :: found) := @Scans.cons _ _ [_] found rfl h
    cases empty with
    | true => exact ⟨endsToken_cons (by decide) _, hbrace⟩
    | false => exact ⟨endsToken_cons (by decide) _, @Scans.cons _ _ [] _ rfl hbrace⟩

/-- Written tokens are scanned as their lexemes, in front of what ends every token. -/
theorem scans_writeAll (tokens : List Token) : ∀ {rest more}, Token.Legible tokens → EndsToken rest → Scans rest more →
    Scans (Token.writeAll tokens ++ rest) (Token.lexemesAll tokens ++ more) := by
  induction tokens using Token.list_induction with
  | nil => exact fun _ _ hmore => hmore
  | leaf token tokens hlexemes ih =>
    intro rest more hlegible hrest hmore
    rw [Token.Legible, Token.lexemesAll, hlexemes] at hlegible
    obtain ⟨hstands, htokens⟩ := hlegible
    obtain ⟨behind, hpiece, hscans⟩ := exists_piece_writeAll htokens hstands hrest
    rw [Token.lexemesAll, hlexemes, List.append_assoc]
    exact .cons hpiece (hscans _ (ih htokens hrest hmore))
  | group delimiter body tokens ihbody ih =>
    intro rest more hlegible hrest hmore
    rw [Token.Legible, Token.lexemesAll_group] at hlegible
    have hbody : Token.Legible body := Legible.of_append_closing hlegible.2
    have htokens : Token.Legible tokens := (Legible.of_append hlegible.2).2
    obtain ⟨behind, hwrite, hends, hscans⟩ := @exists_behind (.group delimiter body) rfl tokens rest hrest
    have hbehind := hscans _ (ih htokens hrest hmore)
    obtain ⟨hclosed, hclosing⟩ := scans_closing delimiter body.isEmpty hbehind
    rw [hwrite, Token.lexemesAll_group, Token.write, List.append_assoc, List.append_assoc, List.cons_append,
      List.append_assoc, List.cons_append]
    exact scans_opening delimiter body.isEmpty (ihbody hbody hclosed hclosing)

/-- Text that is made of lexemes is scanned as these, with a step for each character. -/
theorem exists_scanWithin_of_scans {text : List Char} {lexemes : List Lexeme} (h : Scans text lexemes) {fuel : Nat}
    (hfuel : text.length ≤ fuel) (offset : Nat) :
    ∃ found, scanWithin fuel offset text = some found ∧ found.map (·.value) = lexemes := by
  induction h generalizing fuel offset with
  | nil => exact ⟨[], by cases fuel <;> rfl, rfl⟩
  | @cons text rest lexemes more hpiece hmore ih =>
    cases text with
    | nil => cases hpiece
    | cons c text =>
      cases fuel with
      | zero => cases hfuel
      | succ fuel =>
        have hrest := (yields_of_piece hpiece).1.length_le
        obtain ⟨found, hfound, hvalues⟩ := ih (Nat.le_trans hrest (Nat.le_of_succ_le_succ hfuel))
          (offset + byteLength ((c :: text).take ((c :: text).length - rest.length)))
        refine ⟨_, Option.bind_eq_some_iff.2 ⟨_, hpiece, Option.bind_eq_some_iff.2 ⟨found, hfound, rfl⟩⟩, ?_⟩
        simp [hvalues, Function.comp_def]

/-- So it is scanned from its beginning. -/
theorem exists_scan_of_scans {text : List Char} {lexemes : List Lexeme} (h : Scans text lexemes) :
    ∃ found, scan text = some found ∧ found.map (·.value) = lexemes := by
  unfold scan
  split
  · obtain ⟨lexemes, rest, hpiece⟩ := h.exists_piece (List.cons_ne_nil _ _)
    rw [piece_mark] at hpiece
    cases hpiece
  · exact exists_scanWithin_of_scans h (Nat.le_refl _) 0

end Lexeme

namespace Token

/-! ## Reading what is written -/

/-- Lexemes of tokens are built into these tokens again. -/
theorem exists_nest (tokens : List Token) : ∀ {pending : List OpenGroup} {done : List (Located Token)}
    {found : List (Located Lexeme)} {more : List Lexeme}, found.map (·.value) = lexemesAll tokens ++ more →
    ∃ (built : List (Located Token)) (left : List (Located Lexeme)), built.map (·.value) = tokens ∧
      left.map (·.value) = more ∧ nest pending done found = nest pending (built.reverse ++ done) left := by
  induction tokens using list_induction with
  | nil => exact fun h => ⟨[], _, rfl, h, rfl⟩
  | leaf token tokens hlexemes ih =>
    intro pending done found more h
    rw [lexemesAll, hlexemes, List.append_assoc, List.singleton_append] at h
    obtain ⟨⟨value, span⟩, found, rfl, rfl, hfound⟩ := List.map_eq_cons_iff.1 h
    obtain ⟨built, left, hbuilt, hleft, hnest⟩ := @ih pending (⟨token, span⟩ :: done) found more hfound
    refine ⟨⟨token, span⟩ :: built, left, by rw [List.map_cons, hbuilt], hleft, ?_⟩
    rw [nest, hnest, List.reverse_cons, List.append_assoc, List.singleton_append]
  | group delimiter body tokens ihbody ih =>
    intro pending done found more h
    rw [lexemesAll_group, List.cons_append, List.append_assoc, List.cons_append] at h
    obtain ⟨⟨value, start⟩, found, rfl, rfl, hfound⟩ := List.map_eq_cons_iff.1 h
    obtain ⟨inside, left, hinside, hleft, hbody⟩ := @ihbody (⟨delimiter, start.start, done⟩ :: pending) [] found _ hfound
    obtain ⟨⟨value, stop⟩, behind, rfl, rfl, hbehind⟩ := List.map_eq_cons_iff.1 hleft
    obtain ⟨built, left, hbuilt, hleft, hnest⟩ :=
      @ih pending (⟨.group delimiter body, ⟨start.start, stop.stop⟩⟩ :: done) behind more hbehind
    refine ⟨⟨.group delimiter body, ⟨start.start, stop.stop⟩⟩ :: built, left, by rw [List.map_cons, hbuilt], hleft, ?_⟩
    rw [nest, hbody, nest, if_pos rfl, List.append_nil, List.reverse_reverse, hinside, hnest, List.reverse_cons,
      List.append_assoc, List.singleton_append]

/-- Legible tokens that are written are read as the same tokens. -/
theorem read?_writeAll {tokens : List Token} (h : Legible tokens) : read? (writeAll tokens) = some tokens := by
  have hscans := Lexeme.scans_writeAll tokens h endsToken_nil .nil
  rw [List.append_nil, List.append_nil] at hscans
  obtain ⟨found, hscan, hvalues⟩ := Lexeme.exists_scan_of_scans hscans
  obtain ⟨built, left, hbuilt, hleft, hnest⟩ := @exists_nest tokens [] [] found [] (by rw [hvalues, List.append_nil])
  obtain rfl := List.map_eq_nil_iff.1 hleft
  rw [read?, locate?, hscan]
  simp [hnest, nest, hbuilt]

end Token

end PrivateLog
