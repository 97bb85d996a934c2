import PrivateLog.Proofs.Token.Consuming

/-!
# Where tokens stand

The place of a token without parts is the place of its text in the source, in bytes (`Token.standsIn_of_locate?`). A token
inside brackets is part of a group, and so is what a documentation comment stands for, apart from punctuation. So every
identifier and every literal outside of brackets is written at its place (`Token.StandsIn.covers_of_ident`,
`Token.StandsIn.covers_of_literal`).
-/

namespace PrivateLog

open Text

/-- The span is where `part` stands in the text, behind `before`. -/
def Span.Covers (span : Span) (text before part : List Char) : Prop :=
  before ++ part <+: text ∧ span = ⟨byteLength before, byteLength before + byteLength part⟩

/-- A span that covers some text is not empty. -/
theorem Span.Covers.start_lt_stop {span : Span} {text before part : List Char} (h : span.Covers text before part)
    (hne : part ≠ []) : span.start < span.stop := by
  obtain ⟨-, rfl⟩ := h
  have hpos : byteLength part ≠ 0 := fun hzero => hne (byteLength_eq_zero_iff.1 hzero)
  exact Nat.lt_add_of_pos_right (Nat.pos_of_ne_zero hpos)

/-- Part of what a span covers is covered by a span further on. -/
theorem Span.Covers.inside {span : Span} {text before front part behind : List Char}
    (h : span.Covers text before (front ++ (part ++ behind))) :
    Span.Covers ⟨span.start + byteLength front, span.start + byteLength front + byteLength part⟩ text (before ++ front)
      part := by
  obtain ⟨hlead, rfl⟩ := h
  refine ⟨List.IsPrefix.trans ⟨behind, ?_⟩ hlead, ?_⟩
  · simp
  · rw [byteLength_append before front]

namespace Token

/-- A token that stands in the source: outside of groups, and apart from punctuation, its place is that of its text. -/
inductive StandsIn (source : List Char) : Located Token → Prop where
  | group (delimiter : Delimiter) (body : List Token) (span : Span) : StandsIn source ⟨.group delimiter body, span⟩
  | punct (symbol : Char) (spacing : Spacing) (span : Span) : StandsIn source ⟨.punct symbol spacing, span⟩
  | leaf {before text rest : List Char} {token : Token} : before ++ text = source → Lexeme.leaf? text = some (token, rest) →
      StandsIn source ⟨token, ⟨byteLength before, byteLength before + byteLength token.write⟩⟩

/-- What stands in a text as a token is found there. -/
theorem covers_of_leaf? {before text rest source : List Char} {token : Token} (hsource : before ++ text = source)
    (h : Lexeme.leaf? text = some (token, rest)) :
    Span.Covers ⟨byteLength before, byteLength before + byteLength token.write⟩ source before token.write := by
  refine ⟨⟨rest, ?_⟩, rfl⟩
  rw [← hsource, Lexeme.eq_write_append_of_leaf? h, List.append_assoc]

/-- Where an identifier stands, its name is written. -/
theorem StandsIn.covers_of_ident {source : List Char} {name : String} {span : Span}
    (h : StandsIn source ⟨.ident name, span⟩) : ∃ before, span.Covers source before name.toList := by
  cases h with
  | leaf hsource hleaf => exact ⟨_, covers_of_leaf? hsource hleaf⟩

/-- Where a literal stands, its text is written. -/
theorem StandsIn.covers_of_literal {source : List Char} {text : String} {span : Span}
    (h : StandsIn source ⟨.literal text, span⟩) : ∃ before, span.Covers source before text.toList := by
  cases h with
  | leaf hsource hleaf => exact ⟨_, covers_of_leaf? hsource hleaf⟩

/-- All tokens that were read stand in the source, those in front of open groups too. -/
structure AllStandIn (source : List Char) (pending : List OpenGroup) (done : List (Located Token)) : Prop where
  done : ∀ token ∈ done, StandsIn source token
  pending : ∀ group ∈ pending, ∀ token ∈ group.before, StandsIn source token

/-- The lexemes of one piece keep this: what stands outside of brackets is the token of the piece, or punctuation. -/
theorem AllStandIn.of_yields {source before text rest : List Char} {lexemes : List Lexeme} {pending : List OpenGroup}
    {done tokens : List (Located Token)} {more : List (Located Lexeme)} (hall : AllStandIn source pending done)
    (hyields : Lexeme.Yields text rest lexemes) (hsource : before ++ text = source) {span : Span}
    (hspan : ∀ taken, text = taken ++ rest → span = ⟨byteLength before, byteLength before + byteLength taken⟩)
    (h : nest pending done (lexemes.map (fun lexeme => ⟨lexeme, span⟩) ++ more) = some tokens) :
    ∃ pending' done', AllStandIn source pending' done' ∧ nest pending' done' more = some tokens := by
  cases hyields with
  | gap => exact ⟨pending, done, hall, h⟩
  | @documentation inner body _ hdocumentation =>
    obtain ⟨-, -, hdocumentation⟩ := Option.bind_eq_some_iff.1 hdocumentation
    cases hdocumentation
    cases inner with
    | true =>
      refine ⟨pending, _, ⟨?_, hall.pending⟩, h⟩
      exact List.forall_mem_cons.2 ⟨.group _ _ _, List.forall_mem_cons.2 ⟨.punct _ _ _,
        List.forall_mem_cons.2 ⟨.punct _ _ _, hall.done⟩⟩⟩
    | false =>
      refine ⟨pending, _, ⟨?_, hall.pending⟩, h⟩
      exact List.forall_mem_cons.2 ⟨.group _ _ _, List.forall_mem_cons.2 ⟨.punct _ _ _, hall.done⟩⟩
  | @leaf token hleaf =>
    refine ⟨pending, ⟨token, span⟩ :: done, ⟨List.forall_mem_cons.2 ⟨?_, hall.done⟩, hall.pending⟩, h⟩
    rw [hspan token.write (Lexeme.eq_write_append_of_leaf? hleaf)]
    exact .leaf hsource hleaf
  | opening htext =>
    exact ⟨_, [], ⟨fun token hm => absurd hm List.not_mem_nil, List.forall_mem_cons.2 ⟨hall.done, hall.pending⟩⟩, h⟩
  | closing htext =>
    cases pending with
    | nil => cases h
    | cons innermost pending =>
      obtain ⟨hinnermost, hpending⟩ := List.forall_mem_cons.1 hall.pending
      rw [List.map_singleton, List.singleton_append, nest] at h
      split at h
      · exact ⟨pending, _, ⟨List.forall_mem_cons.2 ⟨.group _ _ _, hinnermost⟩, hpending⟩, h⟩
      · cases h

/-- At the end of a text these are its tokens. -/
theorem AllStandIn.of_nil {source : List Char} {pending : List OpenGroup} {done tokens : List (Located Token)}
    (hall : AllStandIn source pending done) (h : nest pending done [] = some tokens) :
    ∀ token ∈ tokens, StandsIn source token := by
  rw [nest] at h
  split at h
  · cases h
    intro token hm
    exact hall.done token (List.mem_reverse.1 hm)
  · cases h

/-- So all tokens of a text stand in it, as long as the fuel lasts. -/
theorem AllStandIn.of_scanWithin {source : List Char} {fuel : Nat} {before text : List Char} {pending : List OpenGroup}
    {done tokens : List (Located Token)} {found : List (Located Lexeme)} (hall : AllStandIn source pending done)
    (hsource : before ++ text = source) (hscan : Lexeme.scanWithin fuel (byteLength before) text = some found)
    (h : nest pending done found = some tokens) : ∀ token ∈ tokens, StandsIn source token := by
  -- The text that was read and the text ahead are always the source, and the offset is that of the text ahead.
  induction fuel generalizing before text pending done found with
  | zero =>
    cases text with
    | nil =>
      cases hscan
      exact hall.of_nil h
    | cons c text => cases hscan
  | succ fuel ih =>
    cases text with
    | nil =>
      cases hscan
      exact hall.of_nil h
    | cons c text =>
      obtain ⟨⟨lexemes, rest⟩, hpiece, hscan⟩ := Option.bind_eq_some_iff.1 hscan
      obtain ⟨more, hmore, hscan⟩ := Option.bind_eq_some_iff.1 hscan
      cases hscan
      obtain ⟨hrest, hyields⟩ := Lexeme.yields_of_piece hpiece
      obtain ⟨taken, htaken⟩ := hrest.trans (List.suffix_cons c text)
      have hstop : ∀ front, c :: text = front ++ rest →
          byteLength before + byteLength ((c :: text).take ((c :: text).length - rest.length)) =
            byteLength before + byteLength front := by
        intro front hfront
        simp [hfront]
      obtain ⟨pending', done', hall', hnest⟩ := hall.of_yields hyields hsource
        (fun front hfront => by rw [hstop front hfront]) h
      have hbefore : (before ++ taken) ++ rest = source := by
        rw [List.append_assoc, htaken, hsource]
      rw [hstop taken htaken.symm, ← byteLength_append] at hmore
      exact ih hall' hbefore hmore hnest

/-- All tokens of a source text stand in it. -/
theorem standsIn_of_locate? {source : List Char} {tokens : List (Located Token)} (h : locate? source = some tokens) :
    ∀ token ∈ tokens, StandsIn source token := by
  obtain ⟨found, hscan, hnest⟩ := Option.bind_eq_some_iff.1 h
  have hall : AllStandIn source [] [] :=
    ⟨fun token hm => absurd hm List.not_mem_nil, fun group hm => absurd hm List.not_mem_nil⟩
  unfold Lexeme.scan at hscan
  split at hscan
  · rename_i text
    have hmark : byteLength ['\uFEFF'] = 3 := by decide
    rw [← hmark] at hscan
    exact hall.of_scanWithin rfl hscan hnest
  · have hstart : byteLength [] = 0 := rfl
    rw [← hstart] at hscan
    exact hall.of_scanWithin rfl hscan hnest

end Token

end PrivateLog
