import PrivateLog.Proofs.Token.Literal
import Mathlib.Data.Option.Basic

/-!
# Where literals between quotes end

A literal between quotes ends where its closing quote says so: it stands in front of what is left, and it is the same literal in
front of anything else (`exists_used_of_skip`). So it is with each part of such a literal. The exception is the indentation of a
continued line, which ends at the first character that is no blank.
-/

namespace PrivateLog.StringLiteral

variable {alphabet : Alphabet}

/-- The code of an escape stands in front of what is left, whatever that is, -/
theorem exists_used_of_readCode {value digits code : Nat} {text rest : List Char}
    (h : readCode value digits text = some (code, rest)) :
    ∃ used, text = used ++ rest ∧ ∀ more, readCode value digits (used ++ more) = some (code, more) := by
  induction text generalizing value digits with
  | nil => cases h
  | cons c text ih =>
    rw [readCode] at h
    split at h
    · rename_i hgap
      obtain ⟨used, rfl, hmore⟩ := ih h
      exact ⟨c :: used, rfl, fun more => by rw [List.cons_append, readCode, if_pos hgap, hmore]⟩
    · rename_i hgap
      split at h
      · rename_i hend
        cases h
        exact ⟨[c], rfl, fun more => by rw [List.singleton_append, readCode, if_neg hgap, if_pos hend]⟩
      · rename_i hend
        split at h
        · cases h
        · rename_i hdigits
          obtain ⟨digit, hdigit, h⟩ := Option.bind_eq_some_iff.1 h
          obtain ⟨used, rfl, hmore⟩ := ih h
          refine ⟨c :: used, rfl, fun more => ?_⟩
          rw [List.cons_append, readCode, if_neg hgap, if_neg hend, if_neg hdigits, hdigit]
          exact hmore more

/-- an escape, -/
theorem exists_used_of_readEscape {c : Char} {text rest : List Char} (h : readEscape alphabet text = some (c, rest)) :
    ∃ used, text = used ++ rest ∧ ∀ more, readEscape alphabet (used ++ more) = some (c, more) := by
  unfold readEscape at h
  split at h
  case h_7 =>
    split at h <;> cases h
    rename_i hbyte
    exact ⟨['0'], rfl, fun more => if_pos hbyte⟩
  case h_8 high low behind =>
    obtain ⟨first, hfirst, h⟩ := Option.bind_eq_some_iff.1 h
    obtain ⟨second, hsecond, h⟩ := Option.bind_eq_some_iff.1 h
    obtain ⟨⟨⟩, hbyte, h⟩ := Option.bind_eq_some_iff.1 h
    cases h
    refine ⟨['x', high, low], rfl, fun more => ?_⟩
    rw [List.cons_append, List.cons_append, List.singleton_append, readEscape, hfirst]
    simp only [Option.bind_eq_bind, Option.bind_some, hsecond, hbyte]
    rfl
  case h_9 behind =>
    obtain ⟨⟨code, after⟩, hcode, h⟩ := Option.bind_eq_some_iff.1 h
    obtain ⟨⟨⟩, hvalid, h⟩ := Option.bind_eq_some_iff.1 h
    cases h
    obtain ⟨used, rfl, hmore⟩ := exists_used_of_readCode hcode
    refine ⟨'u' :: '\x7b' :: used, rfl, fun more => ?_⟩
    rw [List.cons_append, List.cons_append, readEscape, hmore]
    simp only [Option.bind_eq_bind, Option.bind_some, hvalid]
    rfl
  case h_10 => cases h
  all_goals
    cases h
    exact ⟨[_], rfl, fun more => rfl⟩

/-- An indentation ends where the next character is no blank, and the same character ends it. -/
theorem exists_used_of_skipIndent {c : Char} {text rest : List Char} (h : skipIndent text = some (c :: rest)) :
    ∃ used, text = used ++ c :: rest ∧ ∀ more, skipIndent (used ++ c :: more) = some (c :: more) := by
  fun_induction skipIndent text with
  | case4 text ih =>
    obtain ⟨used, rfl, hmore⟩ := ih h
    exact ⟨'\r' :: '\n' :: used, rfl, hmore⟩
  | case5 => cases h
  | case6 => cases h
  | case7 d text h1 h2 h3 h4 h5 =>
    cases h
    exact ⟨[], rfl, fun more => skipIndent_of_graphic ⟨h1, h2, h3, h5⟩⟩
  | _ text ih =>
    obtain ⟨used, rfl, hmore⟩ := ih h
    exact ⟨_ :: used, rfl, hmore⟩

/-- A quote ends the text. -/
theorem readQuotedWithin_quote (fuel : Nat) (text : List Char) :
    readQuotedWithin alphabet (fuel + 1) ('"' :: text) = some ([], text) := by
  unfold readQuotedWithin
  rfl

/-- A backslash before the end of a line skips it, and the indentation behind it. -/
theorem readQuotedWithin_continued {ending text rest : List Char} (hending : ending = ['\n'] ∨ ending = ['\r', '\n'])
    (h : skipIndent text = some rest) (fuel : Nat) :
    readQuotedWithin alphabet (fuel + 1) ('\\' :: (ending ++ text)) = readQuotedWithin alphabet fuel rest := by
  rcases hending with rfl | rfl
  all_goals
    conv_lhs => unfold readQuotedWithin
    rw [if_neg (by decide), if_pos rfl]
    simp only [List.cons_append, List.nil_append, h, Option.bind_eq_bind, Option.bind_some]

/-- The end of a line stands for a line feed. -/
theorem readQuotedWithin_lineBreak (fuel : Nat) (text : List Char) :
    readQuotedWithin alphabet (fuel + 1) ('\r' :: '\n' :: text) =
      (fun found => ('\n' :: found.1, found.2)) <$> readQuotedWithin alphabet fuel text := by
  conv_lhs => unfold readQuotedWithin
  rw [if_neg (by decide), if_neg (by decide), if_pos rfl]
  simp only
  cases readQuotedWithin alphabet fuel text <;> rfl

/-- A text is read as some characters up to a closing quote at its end, whatever stands behind it. -/
structure Closes (alphabet : Alphabet) (used values : List Char) : Prop where
  quote : '"' ∈ used
  read : ∀ more fuel, used.length ≤ fuel → readQuotedWithin alphabet fuel (used ++ more) = some (values, more)

/-- A step in front of such a text takes a character at least. -/
theorem Closes.step {front used values : List Char} (h : Closes alphabet used values) (hne : front ≠ [])
    (change : List Char → List Char)
    (hfront : ∀ more fuel, readQuotedWithin alphabet (fuel + 1) (front ++ (used ++ more)) =
      (fun found => (change found.1, found.2)) <$> readQuotedWithin alphabet fuel (used ++ more)) :
    Closes alphabet (front ++ used) (change values) := by
  refine ⟨List.mem_append_right front h.quote, fun more fuel hfuel => ?_⟩
  have hpos : 0 < front.length := List.length_pos_iff.2 hne
  rw [List.length_append] at hfuel
  obtain ⟨fuel, rfl⟩ := Nat.exists_eq_add_one.2 (show 0 < fuel by omega)
  rw [List.append_assoc, hfront, h.read more fuel (by omega)]
  rfl

/-- Such a step is the end of a line behind a backslash, with the indentation of the next one. -/
theorem Closes.continued {ending indent used values : List Char} (h : Closes alphabet used values)
    (hending : ending = ['\n'] ∨ ending = ['\r', '\n'])
    (hindent : ∀ more, skipIndent (indent ++ (used ++ more)) = some (used ++ more)) :
    Closes alphabet ('\\' :: (ending ++ indent) ++ used) values := by
  refine h.step (List.cons_ne_nil _ _) id fun more fuel => ?_
  rw [List.cons_append, List.append_assoc, readQuotedWithin_continued hending (hindent more)]
  exact (Option.map_id' ..).symm

/-- What stands up to the closing quote stands in front of what is left, whatever that is. -/
theorem exists_closes_of_readQuotedWithin {fuel : Nat} {text values rest : List Char}
    (h : readQuotedWithin alphabet fuel text = some (values, rest)) :
    ∃ used, text = used ++ rest ∧ Closes alphabet used values := by
  induction fuel generalizing text values with
  | zero => cases h
  | succ fuel ih =>
    cases text with
    | nil => cases h
    | cons c text =>
      unfold readQuotedWithin at h
      split at h
      · rename_i hquote
        subst hquote
        cases h
        refine ⟨['"'], rfl, List.mem_singleton_self _, fun more fuel hfuel => ?_⟩
        obtain ⟨fuel, rfl⟩ := Nat.exists_eq_add_of_le' hfuel
        exact readQuotedWithin_quote fuel more
      · rename_i hquote
        split at h
        · rename_i hbackslash
          subst hbackslash
          have hcontinued : ∀ {ending behind}, (ending = ['\n'] ∨ ending = ['\r', '\n']) → text = ending ++ behind →
              (skipIndent behind >>= readQuotedWithin alphabet fuel) = some (values, rest) →
              ∃ used, '\\' :: text = used ++ rest ∧ Closes alphabet used values := by
            rintro ending behind hending rfl h
            obtain ⟨after, hindent, h⟩ := Option.bind_eq_some_iff.1 h
            obtain ⟨used, rfl, hcloses⟩ := ih h
            obtain ⟨d, used, rfl⟩ := List.exists_cons_of_ne_nil (List.ne_nil_of_mem hcloses.quote)
            obtain ⟨indent, rfl, hmore⟩ := exists_used_of_skipIndent hindent
            exact ⟨_, by simp, hcloses.continued hending fun more => hmore (used ++ more)⟩
          split at h
          · exact hcontinued (Or.inl rfl) rfl h
          · exact hcontinued (Or.inr rfl) rfl h
          · obtain ⟨⟨value, behind⟩, hescape, h⟩ := Option.bind_eq_some_iff.1 h
            obtain ⟨⟨values', after⟩, hrest, h⟩ := Option.bind_eq_some_iff.1 h
            cases h
            obtain ⟨used, rfl, hcloses⟩ := ih hrest
            obtain ⟨front, rfl, hmore⟩ := exists_used_of_readEscape hescape
            refine ⟨'\\' :: front ++ used, by simp, hcloses.step (List.cons_ne_nil _ _) (value :: ·) fun more fuel => ?_⟩
            exact readQuotedWithin_backslash (hmore _) fuel
        · rename_i hbackslash
          split at h
          · rename_i hreturn
            subst hreturn
            split at h
            · obtain ⟨⟨values', after⟩, hrest, h⟩ := Option.bind_eq_some_iff.1 h
              cases h
              obtain ⟨used, rfl, hcloses⟩ := ih hrest
              refine ⟨['\r', '\n'] ++ used, rfl, hcloses.step (List.cons_ne_nil _ _) ('\n' :: ·) fun more fuel => ?_⟩
              exact readQuotedWithin_lineBreak fuel _
            · cases h
          · rename_i hreturn
            split at h
            · rename_i hplain
              obtain ⟨⟨values', after⟩, hrest, h⟩ := Option.bind_eq_some_iff.1 h
              cases h
              obtain ⟨used, rfl, hcloses⟩ := ih hrest
              refine ⟨[c] ++ used, rfl, hcloses.step (List.cons_ne_nil _ _) (c :: ·) fun more fuel => ?_⟩
              exact readQuotedWithin_plain ⟨hquote, hbackslash, hreturn⟩ hplain fuel _
            · cases h

/-- So does a text between quotes, -/
theorem exists_used_of_readQuoted {text values rest : List Char} (h : readQuoted alphabet text = some (values, rest)) :
    ∃ used, text = used ++ rest ∧ '"' ∈ used ∧ ∀ more, readQuoted alphabet (used ++ more) = some (values, more) := by
  obtain ⟨used, rfl, hcloses⟩ := exists_closes_of_readQuotedWithin h
  refine ⟨used, rfl, hcloses.quote, fun more => hcloses.read more _ ?_⟩
  rw [List.length_append]
  exact Nat.le_add_right _ _

/-! ## Raw texts -/

/-- Whether a number of marks stands at the beginning of a text that is at least as long is not settled behind it. -/
theorem isPrefixOf_append {hashes : Nat} {text : List Char} (h : hashes ≤ text.length) (more : List Char) :
    (List.replicate hashes '#').isPrefixOf (text ++ more) = (List.replicate hashes '#').isPrefixOf text := by
  rw [Bool.eq_iff_iff, List.isPrefixOf_iff_prefix, List.isPrefixOf_iff_prefix]
  refine ⟨fun hlead => ?_, fun hlead => hlead.trans (List.prefix_append text more)⟩
  exact List.prefix_of_prefix_length_le hlead (List.prefix_append text more) (by rwa [List.length_replicate])

/-- A quote with all its marks ends a raw text. -/
theorem readRawBody_end {hashes : Nat} {c : Char} {text : List Char} (hc : c ≠ '\r')
    (h : (c = '"' && (List.replicate hashes '#').isPrefixOf text) = true) :
    readRawBody alphabet hashes (c :: text) = some ([], text.drop hashes) := by
  unfold readRawBody
  split
  · rename_i heq
    cases heq
  · rename_i heq
    cases heq
    exact absurd rfl hc
  · rename_i heq
    cases heq
    exact absurd rfl hc
  · rename_i heq
    cases heq
    exact if_pos h

/-- Any other character stands for itself. -/
theorem readRawBody_plain {hashes : Nat} {c : Char} {text : List Char} (hc : c ≠ '\r')
    (h : ¬(c = '"' && (List.replicate hashes '#').isPrefixOf text) = true) (hplain : alphabet.plain c = true) :
    readRawBody alphabet hashes (c :: text) =
      (fun found => (c :: found.1, found.2)) <$> readRawBody alphabet hashes text := by
  conv_lhs => unfold readRawBody
  split
  · rename_i heq
    cases heq
  · rename_i heq
    cases heq
    exact absurd rfl hc
  · rename_i heq
    cases heq
    exact absurd rfl hc
  · rename_i heq
    cases heq
    rw [if_neg h, if_pos hplain]
    cases readRawBody alphabet hashes text <;> rfl

/-- What stands up to the end of a raw text stands in front of what is left, whatever that is. The end takes more
characters than it has marks. -/
theorem exists_used_of_readRawBody {hashes : Nat} {text values rest : List Char}
    (h : readRawBody alphabet hashes text = some (values, rest)) :
    ∃ used, text = used ++ rest ∧ '"' ∈ used ∧ hashes < used.length ∧
      ∀ more, readRawBody alphabet hashes (used ++ more) = some (values, more) := by
  fun_induction readRawBody alphabet hashes text generalizing values with
  | case1 => cases h
  | case2 text ih =>
    obtain ⟨⟨values', after⟩, hrest, h⟩ := Option.bind_eq_some_iff.1 h
    cases h
    obtain ⟨used, rfl, hquote, hlength, hmore⟩ := ih hrest
    refine ⟨'\r' :: '\n' :: used, rfl, by simp [hquote], by simp only [List.length_cons]; omega, fun more => ?_⟩
    rw [List.cons_append, List.cons_append, readRawBody, hmore]
    rfl
  | case3 => cases h
  | case4 c text hreturn hline hend =>
    cases h
    rw [Bool.and_eq_true, decide_eq_true_eq] at hend
    obtain ⟨rfl, hend⟩ := hend
    obtain ⟨behind, rfl⟩ := List.isPrefixOf_iff_prefix.1 hend
    refine ⟨'"' :: List.replicate hashes '#', by simp, by simp, by simp, fun more => ?_⟩
    have hlength : hashes ≤ (List.replicate hashes '#').length := Nat.le_of_eq List.length_replicate.symm
    have hmarks := isPrefixOf_append hlength more
    rw [List.isPrefixOf_iff_prefix.2 List.prefix_rfl] at hmarks
    rw [List.cons_append, readRawBody_end (by decide) (by simp [hmarks])]
    simp
  | case5 c text hreturn hline hend hplain ih =>
    obtain ⟨⟨values', after⟩, hrest, h⟩ := Option.bind_eq_some_iff.1 h
    cases h
    obtain ⟨used, rfl, hquote, hlength, hmore⟩ := ih hrest
    refine ⟨c :: used, rfl, by simp [hquote], by simp only [List.length_cons]; omega, fun more => ?_⟩
    rw [isPrefixOf_append (Nat.le_of_lt hlength)] at hend
    rw [← isPrefixOf_append (Nat.le_of_lt hlength) more] at hend
    rw [List.cons_append, readRawBody_plain (fun heq => hline heq) hend hplain, hmore]
    rfl
  | case6 => cases h

/-- A raw text begins with marks, and with a quote behind them. -/
theorem readRaw_replicate (hashes : Nat) (text : List Char) :
    readRaw alphabet (List.replicate hashes '#' ++ '"' :: text) =
      if hashes ≤ 255 then readRawBody alphabet hashes text else none := by
  have hmarks : ((List.replicate hashes '#' ++ '"' :: text).takeWhile (· = '#')).length = hashes := by
    rw [List.takeWhile_append_of_pos (by simp), List.takeWhile_cons_of_neg (by decide), List.append_nil,
      List.length_replicate]
  have hbehind : (List.replicate hashes '#' ++ '"' :: text).drop hashes = '"' :: text := by
    simp
  rw [readRaw, hmarks]
  simp only [hbehind]

/-- Each raw text is written in this way. -/
theorem exists_body_of_readRaw {text values rest : List Char} (h : readRaw alphabet text = some (values, rest)) :
    ∃ hashes body, text = List.replicate hashes '#' ++ '"' :: body ∧ hashes ≤ 255 ∧
      readRawBody alphabet hashes body = some (values, rest) := by
  have hmarks : text.takeWhile (· = '#') = List.replicate (text.takeWhile (· = '#')).length '#' :=
    List.eq_replicate_of_mem fun c hm => of_decide_eq_true (List.all_eq_true.1 List.all_takeWhile c hm)
  have htext : text.takeWhile (· = '#') ++ text.drop (text.takeWhile (· = '#')).length = text :=
    List.prefix_iff_eq_append.1 <| List.takeWhile_prefix _
  unfold readRaw at h
  simp only at h
  split at h
  · rename_i body hquote
    split at h
    · rename_i hbound
      rw [hquote, hmarks] at htext
      exact ⟨_, body, htext.symm, hbound, h⟩
    · cases h
  · cases h

/-- A raw text stands in front of what is left, whatever that is, -/
theorem exists_used_of_readRaw {text values rest : List Char} (h : readRaw alphabet text = some (values, rest)) :
    ∃ used, text = used ++ rest ∧ '"' ∈ used ∧ ∀ more, readRaw alphabet (used ++ more) = some (values, more) := by
  obtain ⟨hashes, body, rfl, hbound, hbody⟩ := exists_body_of_readRaw h
  obtain ⟨used, rfl, -, -, hmore⟩ := exists_used_of_readRawBody hbody
  refine ⟨List.replicate hashes '#' ++ '"' :: used, by simp, by simp, fun more => ?_⟩
  rw [List.append_assoc, List.cons_append, readRaw_replicate, if_pos hbound, hmore]

/-- A character that is no backslash stands for itself between single quotes. -/
theorem readSingle_plain {c : Char} (hc : c ≠ '\\') (hplain : alphabet.plain c = true) (text : List Char) :
    readSingle alphabet (c :: '\'' :: text) = some (c, text) := by
  unfold readSingle
  simp only [hplain, if_true]
  rfl

/-- and so does a single character between quotes. -/
theorem exists_used_of_readSingle {c : Char} {text rest : List Char} (h : readSingle alphabet text = some (c, rest)) :
    ∃ used, text = used ++ rest ∧ '\'' ∈ used ∧ ∀ more, readSingle alphabet (used ++ more) = some (c, more) := by
  unfold readSingle at h
  simp only at h
  split at h
  · obtain ⟨⟨value, behind⟩, hescape, h⟩ := Option.bind_eq_some_iff.1 h
    simp only at h
    split at h
    · cases h
      obtain ⟨used, rfl, hmore⟩ := exists_used_of_readEscape hescape
      refine ⟨'\\' :: (used ++ ['\'']), by simp, by simp, fun more => ?_⟩
      have hbehind := hmore ('\'' :: more)
      rw [List.cons_append, List.append_assoc, List.singleton_append, readSingle]
      simp only [hbehind]
      rfl
    · cases h
  · rename_i d behind hbackslash
    split at h
    · rename_i hplain
      simp only [Option.bind_eq_bind, Option.bind_some] at h
      split at h
      · cases h
        refine ⟨[c, '\''], rfl, by simp, fun more => ?_⟩
        exact readSingle_plain hbackslash hplain more
      · cases h
    · cases h
  · cases h

/-! ## Literals -/

/-- Behind the characters that announce a literal, it is read in one way. -/
theorem exists_used_of_announced {α : Type} {read : List Char → Option (α × List Char)} {quote : Char} {value : α}
    {text rest : List Char} (front : List Char) (hquote : quote ∈ ['"', '\''])
    (h : ∃ used, text = used ++ rest ∧ quote ∈ used ∧ ∀ more, read (used ++ more) = some (value, more))
    (hskip : ∀ text, skip (front ++ text) = (·.2) <$> read text) :
    ∃ used, front ++ text = used ++ rest ∧ (∃ quote ∈ ['"', '\''], quote ∈ used) ∧
      ∀ more, skip (used ++ more) = some more := by
  obtain ⟨used, rfl, hm, hmore⟩ := h
  refine ⟨front ++ used, (List.append_assoc ..).symm, ⟨quote, hquote, List.mem_append_right front hm⟩, fun more => ?_⟩
  rw [List.append_assoc, hskip, hmore]
  rfl

/-- A literal between quotes stands in front of what is left, whatever that is, and holds a quote. -/
theorem exists_used_of_skip {text rest : List Char} (h : skip text = some rest) :
    ∃ used, text = used ++ rest ∧ (∃ quote ∈ ['"', '\''], quote ∈ used) ∧
      ∀ more, skip (used ++ more) = some more := by
  unfold skip at h
  split at h
  case h_9 => cases h
  all_goals obtain ⟨⟨value, behind⟩, hread, rfl⟩ := Option.map_eq_some_iff.1 h
  case h_1 => exact exists_used_of_announced ['"'] (by decide) (exists_used_of_readQuoted hread) fun _ => rfl
  case h_2 => exact exists_used_of_announced ['r'] (by decide) (exists_used_of_readRaw hread) fun _ => rfl
  case h_3 => exact exists_used_of_announced ['b', '"'] (by decide) (exists_used_of_readQuoted hread) fun _ => rfl
  case h_4 => exact exists_used_of_announced ['b', 'r'] (by decide) (exists_used_of_readRaw hread) fun _ => rfl
  case h_5 => exact exists_used_of_announced ['c', '"'] (by decide) (exists_used_of_readQuoted hread) fun _ => rfl
  case h_6 => exact exists_used_of_announced ['c', 'r'] (by decide) (exists_used_of_readRaw hread) fun _ => rfl
  case h_7 => exact exists_used_of_announced ['b', '\''] (by decide) (exists_used_of_readSingle hread) fun _ => rfl
  case h_8 => exact exists_used_of_announced ['\''] (by decide) (exists_used_of_readSingle hread) fun _ => rfl

/-- So it is left out at the front, and has a character at least. -/
theorem suffix_of_skip {text rest : List Char} (h : skip text = some rest) : rest <:+ text.tail := by
  obtain ⟨used, rfl, ⟨quote, -, hm⟩, -⟩ := exists_used_of_skip h
  obtain ⟨c, used, rfl⟩ := List.exists_cons_of_ne_nil (List.ne_nil_of_mem hm)
  exact List.suffix_append used rest

end PrivateLog.StringLiteral
