import PrivateLog.Proofs.Template.Grammar

/-!
# Cutting a template's value at its braces

Counting braces finds the closing brace of a placeholder: what stands before it is balanced, and no other brace is behind
balanced text (`splitBody_eq_some_iff`). So a valid item at the beginning of a text is cut off as it is
(`cutWithin_spelling_append`), and where no valid item begins, cutting ends in a fault (`exists_item_or_broken`,
`cutWithin_of_broken`). A value without faults is therefore the row of exactly those items that it is cut into
(`cut_eq_of_decomposes`, `exists_decomposes`), and of no others (`Decomposes.unique`).
-/

namespace PrivateLog.Template

open Text

/-! ## Balanced text -/

/-- No prefix of the text closes more braces than it opens, `depth` of them being open before, and the text closes all. -/
def Closes (depth : Nat) (text : List Char) : Prop :=
  (∀ front, front <+: text → front.count '}' ≤ front.count '{' + depth) ∧ text.count '}' = text.count '{' + depth

/-- Balanced is closing all with no brace open before. -/
theorem balanced_iff_closes {text : List Char} : Balanced text ↔ Closes 0 text := by
  simp [Balanced, Closes]

/-- What a first character changes in the number of open braces, the rest of the text makes good. -/
theorem closes_cons_iff {c : Char} {before after : Nat} {text : List Char}
    (h : [c].count '{' + before = [c].count '}' + after) : Closes before (c :: text) ↔ Closes after text := by
  have hcount : ∀ (front : List Char) (d : Char), (c :: front).count d = [c].count d + front.count d := by
    intro front d
    rw [← List.singleton_append, List.count_append]
  constructor
  · rintro ⟨hfront, htotal⟩
    refine ⟨fun front hf => ?_, ?_⟩
    · have := hfront (c :: front) (List.cons_prefix_cons.2 ⟨rfl, hf⟩)
      rw [hcount front '{', hcount front '}'] at this
      omega
    · rw [hcount text '{', hcount text '}'] at htotal
      omega
  · rintro ⟨hfront, htotal⟩
    refine ⟨fun front hf => ?_, ?_⟩
    · cases front with
      | nil => exact Nat.zero_le _
      | cons d front =>
        obtain ⟨rfl, hrest⟩ := List.cons_prefix_cons.1 hf
        have := hfront front hrest
        rw [hcount front '{', hcount front '}']
        omega
    · rw [hcount text '{', hcount text '}']
      omega

/-- The empty text closes nothing. -/
theorem closes_nil_iff {depth : Nat} : Closes depth [] ↔ depth = 0 := by
  simp [Closes, eq_comm]

/-- A text that closes nothing does not begin with a closing brace. -/
theorem not_closes_zero_closing (text : List Char) : ¬Closes 0 ('}' :: text) := by
  intro h
  have := h.1 ['}'] (List.cons_prefix_cons.2 ⟨rfl, List.nil_prefix⟩)
  simp at this

/-- The body of a placeholder is what stands before the brace that closes it: text that closes all that is open. -/
theorem splitBody_eq_some_iff {depth : Nat} {text body rest : List Char} :
    splitBody depth text = some (body, rest) ↔ text = body ++ '}' :: rest ∧ Closes depth body := by
  induction text generalizing depth body with
  | nil => simp [splitBody]
  | cons c text ih =>
    -- One character further on, the same holds at the depth that this character leaves.
    have hstep : ∀ after, [c].count '{' + depth = [c].count '}' + after → c ≠ '}' ∨ depth ≠ 0 →
        ((fun found => (c :: found.1, found.2)) <$> splitBody after text = some (body, rest) ↔
          c :: text = body ++ '}' :: rest ∧ Closes depth body) := by
      intro after hcount hne
      constructor
      · intro h
        obtain ⟨⟨front, behind⟩, hs, hf⟩ := Option.map_eq_some_iff.1 h
        cases hf
        obtain ⟨rfl, hc⟩ := ih.1 hs
        exact ⟨rfl, (closes_cons_iff hcount).2 hc⟩
      · rintro ⟨htext, hc⟩
        cases body with
        | nil =>
          cases htext
          exact absurd (closes_nil_iff.1 hc) (hne.resolve_left (fun h => h rfl))
        | cons d body =>
          rw [List.cons_append, List.cons.injEq] at htext
          obtain ⟨rfl, rfl⟩ := htext
          exact Option.map_eq_some_iff.2 ⟨_, ih.2 ⟨rfl, (closes_cons_iff hcount).1 hc⟩, rfl⟩
    rw [splitBody.eq_def]
    simp only
    by_cases ho : c = '{'
    · rw [if_pos ho]
      subst ho
      exact hstep (depth + 1) (by simp; omega) (Or.inl (by decide))
    · rw [if_neg ho]
      by_cases hc : c = '}'
      · rw [if_pos hc]
        subst hc
        cases depth with
        | succ depth => exact hstep depth (by simp; omega) (Or.inr (Nat.succ_ne_zero depth))
        | zero =>
          constructor
          · intro h
            cases h
            exact ⟨rfl, closes_nil_iff.2 rfl⟩
          · rintro ⟨htext, hcloses⟩
            cases body with
            | nil =>
              cases htext
              rfl
            | cons d body =>
              cases htext
              exact absurd hcloses (not_closes_zero_closing body)
      · rw [if_neg hc]
        exact hstep depth (by simp [ho, hc]) (Or.inl hc)

/-! ## Items -/

namespace Item

/-- The piece that a value with this item is cut into. -/
def piece : Item → Piece
  | .opening => .character '{'
  | .closing => .character '}'
  | .character c => .character c
  | .placeholder body => .placeholder body

/-- An item takes a character at least. -/
theorem spelling_length_pos (item : Item) : 0 < item.spelling.length := by
  cases item <;> simp [spelling]

/-- Valid items are known by their pieces. -/
theorem piece_inj {a b : Item} (ha : a.IsValid) (hb : b.IsValid) (h : a.piece = b.piece) : a = b := by
  cases a <;> cases b <;> cases h
  · rfl
  · exact absurd rfl hb.1
  · rfl
  · exact absurd rfl hb.2
  · exact absurd rfl ha.1
  · exact absurd rfl ha.2
  · rfl
  · rfl

end Item

/-- A located item as a located piece. -/
def locatedPiece (item : Located Item) : Located Piece :=
  ⟨item.value.piece, item.span⟩

/-- A valid item at the beginning of a text is cut off. -/
theorem cutWithin_spelling_append {item : Item} (h : item.IsValid) (fuel offset : Nat) (rest : List Char) :
    cutWithin (fuel + 1) offset (item.spelling ++ rest) =
      ⟨item.piece, ⟨offset, offset + byteLength item.spelling⟩⟩ ::
        cutWithin fuel (offset + byteLength item.spelling) rest := by
  cases item with
  | opening => rfl
  | closing => rfl
  | character c =>
    obtain ⟨ho, hc⟩ := h
    simp [Item.spelling, Item.piece, cutWithin, ho, hc, byteLength]
  | placeholder body =>
    obtain ⟨hbalanced, hhead⟩ := h
    have hs : splitBody 0 (body ++ '}' :: rest) = some (body, rest) :=
      splitBody_eq_some_iff.2 ⟨rfl, balanced_iff_closes.1 hbalanced⟩
    have hstop : offset + byteLength (Item.placeholder body).spelling = offset + 2 + byteLength body := by
      have hopen : '{'.utf8Size = 1 := by decide
      have hclose : '}'.utf8Size = 1 := by decide
      simp only [Item.spelling, byteLength, byteLength_append, hopen, hclose]
      omega
    have htext : (Item.placeholder body).spelling ++ rest = '{' :: (body ++ '}' :: rest) := by
      simp [Item.spelling]
    rw [hstop, htext]
    -- A second opening brace would be a doubled one: the body does not begin with it.
    cases body with
    | nil =>
      rw [List.nil_append] at hs ⊢
      simp [cutWithin, hs, Item.piece]
    | cons d body =>
      have hd : d ≠ '{' := fun he => hhead (by rw [he]; rfl)
      rw [List.cons_append] at hs ⊢
      simp [cutWithin, hs, hd, Item.piece]

/-- Whether a piece is at fault. -/
def Piece.isFault : Piece → Bool
  | .character _ => false
  | .placeholder _ => false
  | .unterminated => true
  | .unmatched => true

/-- A text begins with a valid item, or it is broken. -/
theorem exists_item_or_broken (c : Char) (text : List Char) :
    (∃ item rest, Item.IsValid item ∧ c :: text = item.spelling ++ rest) ∨ ∃ piece part, Broken (c :: text) piece part := by
  by_cases ho : c = '{'
  · subst ho
    by_cases hd : text.head? = some '{'
    · obtain ⟨rest, rfl⟩ := List.head?_eq_some_iff.1 hd
      exact Or.inl ⟨.opening, rest, trivial, rfl⟩
    · by_cases hs : ∃ body rest, text = body ++ '}' :: rest ∧ Balanced body
      · obtain ⟨body, rest, rfl, hbalanced⟩ := hs
        have hhead : body.head? ≠ some '{' := by
          intro hb
          obtain ⟨inner, rfl⟩ := List.head?_eq_some_iff.1 hb
          exact hd rfl
        exact Or.inl ⟨.placeholder body, rest, ⟨hbalanced, hhead⟩, by simp [Item.spelling]⟩
      · refine Or.inr ⟨_, _, .unterminated hd fun body rest htext hbalanced => ?_⟩
        exact hs ⟨body, rest, htext, hbalanced⟩
  · by_cases hc : c = '}'
    · subst hc
      by_cases hd : text.head? = some '}'
      · obtain ⟨rest, rfl⟩ := List.head?_eq_some_iff.1 hd
        exact Or.inl ⟨.closing, rest, trivial, rfl⟩
      · exact Or.inr ⟨_, _, .unmatched hd⟩
    · exact Or.inl ⟨.character c, text, ⟨ho, hc⟩, rfl⟩

/-- A broken text is cut into a fault alone. -/
theorem cutWithin_of_broken {text part : List Char} {piece : Piece} (h : Broken text piece part) (fuel offset : Nat) :
    cutWithin (fuel + 1) offset text = [⟨piece, ⟨offset, offset + byteLength part⟩⟩] := by
  cases h with
  | @unterminated text hhead hbalanced =>
    have hs : splitBody 0 text = none := by
      cases hs : splitBody 0 text with
      | none => rfl
      | some found =>
        obtain ⟨htext, hcloses⟩ := splitBody_eq_some_iff.1 hs
        exact absurd (balanced_iff_closes.2 hcloses) (hbalanced _ _ htext)
    have hopen : '{'.utf8Size = 1 := by decide
    rw [byteLength, hopen]
    cases text with
    | nil => simp [cutWithin, hs, byteLength]
    | cons d text =>
      have hne : d ≠ '{' := fun he => hhead (by rw [he]; rfl)
      simp [cutWithin, hs, hne, Nat.add_assoc]
  | @unmatched text hhead =>
    have hclose : byteLength ['}'] = 1 := by decide
    rw [hclose]
    cases text with
    | nil => simp [cutWithin]
    | cons d text =>
      have hne : d ≠ '}' := fun he => hhead (by rw [he]; rfl)
      simp [cutWithin, hne]

/-- What a broken text is cut into is a fault. -/
theorem isFault_of_broken {text part : List Char} {piece : Piece} (h : Broken text piece part) : piece.isFault = true := by
  cases h <;> rfl

/-! ## Rows of items -/

/-- The empty value is the empty row. -/
theorem decomposes_nil : Decomposes [] [] :=
  ⟨fun _ h => absurd h List.not_mem_nil, rfl⟩

/-- A valid item in front of a value is one more item. -/
theorem Decomposes.cons {item : Item} {rest : List Char} {items : List Item} (hitem : item.IsValid)
    (h : Decomposes rest items) : Decomposes (item.spelling ++ rest) (item :: items) := by
  obtain ⟨hvalid, rfl⟩ := h
  exact ⟨List.forall_mem_cons.2 ⟨hitem, hvalid⟩, List.flatMap_cons⟩

/-- A row of items is cut into the pieces of its items, as long as the fuel lasts. -/
theorem cutWithin_flatMap_spelling {items : List Item} (hvalid : ∀ item ∈ items, item.IsValid) {fuel : Nat}
    (hfuel : (items.flatMap Item.spelling).length ≤ fuel) (offset : Nat) :
    cutWithin fuel offset (items.flatMap Item.spelling) = (locate offset items).map locatedPiece := by
  induction items generalizing fuel offset with
  | nil => cases fuel <;> rfl
  | cons item items ih =>
    obtain ⟨hitem, hitems⟩ := List.forall_mem_cons.1 hvalid
    have hpos := item.spelling_length_pos
    rw [List.flatMap_cons, List.length_append] at hfuel
    cases fuel with
    | zero => omega
    | succ fuel =>
      rw [List.flatMap_cons, cutWithin_spelling_append hitem, ih hitems (by omega)]
      rfl

/-- A value that is a row of items is cut into the pieces of these items. -/
theorem cut_eq_of_decomposes {value : List Char} {items : List Item} (h : Decomposes value items) :
    cut value = (locate 0 items).map locatedPiece := by
  obtain ⟨hvalid, rfl⟩ := h
  exact cutWithin_flatMap_spelling hvalid (Nat.le_refl _) 0

/-- A value without faults is a row of items, as long as the fuel lasts. -/
theorem exists_decomposes_of_cutWithin {fuel offset : Nat} {value : List Char} (hfuel : value.length ≤ fuel)
    (h : ∀ piece ∈ cutWithin fuel offset value, piece.value.isFault = false) : ∃ items, Decomposes value items := by
  induction fuel generalizing offset value with
  | zero =>
    obtain rfl := List.length_eq_zero_iff.1 (Nat.le_zero.1 hfuel)
    exact ⟨[], decomposes_nil⟩
  | succ fuel ih =>
    cases value with
    | nil => exact ⟨[], decomposes_nil⟩
    | cons c text =>
      rcases exists_item_or_broken c text with ⟨item, rest, hitem, htext⟩ | ⟨piece, part, hbroken⟩
      · have hlength := congrArg List.length htext
        have hpos := item.spelling_length_pos
        rw [htext] at h ⊢
        rw [cutWithin_spelling_append hitem] at h
        rw [List.length_append] at hlength
        obtain ⟨items, hitems⟩ := ih (by omega) (List.forall_mem_cons.1 h).2
        exact ⟨item :: items, hitems.cons hitem⟩
      · rw [cutWithin_of_broken hbroken] at h
        have hsound := h _ List.mem_cons_self
        rw [isFault_of_broken hbroken] at hsound
        cases hsound

/-- A value without faults is a row of items. -/
theorem exists_decomposes {value : List Char} (h : ∀ piece ∈ cut value, piece.value.isFault = false) :
    ∃ items, Decomposes value items :=
  exists_decomposes_of_cutWithin (Nat.le_refl _) h

/-- Valid items behind one another are known by their located pieces. -/
theorem eq_of_map_locatedPiece {items items' : List Item} (hvalid : ∀ item ∈ items, item.IsValid)
    (hvalid' : ∀ item ∈ items', item.IsValid) {offset offset' : Nat}
    (h : (locate offset items).map locatedPiece = (locate offset' items').map locatedPiece) : items = items' := by
  induction items generalizing items' offset offset' with
  | nil =>
    cases items' with
    | nil => rfl
    | cons item' items' => cases h
  | cons item items ih =>
    cases items' with
    | nil => cases h
    | cons item' items' =>
      obtain ⟨hitem, hitems⟩ := List.forall_mem_cons.1 hvalid
      obtain ⟨hitem', hitems'⟩ := List.forall_mem_cons.1 hvalid'
      rw [locate, locate, List.map_cons, List.map_cons, List.cons.injEq] at h
      obtain ⟨hpiece, hrest⟩ := h
      have heq : item.piece = item'.piece := congrArg Located.value hpiece
      rw [Item.piece_inj hitem hitem' heq, ih hitems hitems' hrest]

/-- A value is one row of items at most. -/
theorem Decomposes.unique {value : List Char} {items items' : List Item} (h : Decomposes value items)
    (h' : Decomposes value items') : items = items' :=
  eq_of_map_locatedPiece h.1 h'.1 ((cut_eq_of_decomposes h).symm.trans (cut_eq_of_decomposes h'))

end PrivateLog.Template
