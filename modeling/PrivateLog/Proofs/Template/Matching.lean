import PrivateLog.Proofs.Template.Cutting
import Mathlib.Logic.Relation

/-!
# The brace that closes a placeholder

`splitBody` walks through the text behind an opening brace and counts. A `Walk` is such a walk on its way: what it has passed,
how many braces are open there, how far it has come, and what is ahead. On its way nothing is skipped or passed twice, and the
count is that of the braces and never less than zero (`Walk.Sound`); the rest of the walk is `splitBody` again, at the depth
that the count says. It ends at the first closing brace that has as many opening as closing braces in front of it, or, if there
is none, at the end of the text (`splitBody_eq_some_iff_first`, `splitBody_eq_none_iff`), and what follows is cut from there
(`matching_brace_found`).
-/

namespace PrivateLog.Template

open Text

/-! ## Walking -/

/-- A walk through the text behind an opening brace, on its way. -/
structure Walk where
  passed : List Char
  depth : Int
  offset : Nat
  ahead : List Char

namespace Walk

/-- A walk that begins at a place of a text. -/
def start (offset : Nat) (text : List Char) : Walk :=
  ⟨[], 0, offset, text⟩

/-- The walk passes a character, which changes the depth. -/
def pass (walk : Walk) (c : Char) (depth : Int) (ahead : List Char) : Walk :=
  ⟨walk.passed ++ [c], depth, walk.offset + c.utf8Size, ahead⟩

/-- A walk goes on by a character. It does not pass a closing brace where none is open. -/
inductive Step (walk : Walk) : Walk → Prop where
  | opening {text : List Char} : walk.ahead = '{' :: text → Step walk (walk.pass '{' (walk.depth + 1) text)
  | closing {text : List Char} : walk.ahead = '}' :: text → walk.depth ≠ 0 →
      Step walk (walk.pass '}' (walk.depth - 1) text)
  | other {c : Char} {text : List Char} : walk.ahead = c :: text → c ≠ '{' → c ≠ '}' →
      Step walk (walk.pass c walk.depth text)

/-- The walks that the steps from another one lead to. -/
abbrev Reaches : Walk → Walk → Prop :=
  Relation.ReflTransGen Step

/-- What is true of a walk through a text on its way: it has passed a front of the text, as many bytes as it has come, and the
depth is the number of braces that are open behind that front, of which there never were less than none. -/
structure Sound (offset : Nat) (text : List Char) (walk : Walk) : Prop where
  text_eq : walk.passed ++ walk.ahead = text
  offset_eq : walk.offset = offset + byteLength walk.passed
  depth_eq : walk.depth = walk.passed.count '{' - walk.passed.count '}'
  depth_nonneg : 0 ≤ walk.depth

variable {offset : Nat} {text : List Char} {walk next : Walk}

/-- At its beginning a walk is sound. -/
theorem sound_start (offset : Nat) (text : List Char) : Sound offset text (start offset text) :=
  ⟨rfl, rfl, rfl, Int.le_refl 0⟩

/-- A character that is passed keeps the walk sound if the depth is counted. -/
theorem Sound.pass (h : walk.Sound offset text) {c : Char} {depth : Int} {ahead : List Char}
    (hahead : walk.ahead = c :: ahead) (hcount : depth = walk.depth + [c].count '{' - [c].count '}') (hdepth : 0 ≤ depth) :
    (walk.pass c depth ahead).Sound offset text := by
  obtain ⟨htext, hoffset, hcounted, -⟩ := h
  refine ⟨?_, ?_, ?_, hdepth⟩
  · simp [Walk.pass, ← htext, hahead]
  · simp [Walk.pass, hoffset, byteLength_append, byteLength, Nat.add_assoc]
  · simp only [Walk.pass, List.count_append, Int.natCast_add]
    omega

/-- A step keeps the walk sound: a closing brace is passed only where one is open. -/
theorem Sound.step (h : walk.Sound offset text) (hstep : Step walk next) : next.Sound offset text := by
  have hdepth := h.depth_nonneg
  cases hstep with
  | opening hahead => exact h.pass hahead (by simp) (by omega)
  | closing hahead hne => exact h.pass hahead (by simp) (by omega)
  | other hahead ho hc => exact h.pass hahead (by simp [ho, hc]) hdepth

/-- Every walk is sound on its way. -/
theorem Reaches.sound (h : Reaches (start offset text) walk) : walk.Sound offset text := by
  induction h with
  | refl => exact sound_start offset text
  | tail _ hstep ih => exact ih.step hstep

/-- What the search for the closing brace finds from here on: the rest of the body, and the text behind it. -/
def found (walk : Walk) : Option (List Char × List Char) :=
  (fun rest => (walk.passed ++ rest.1, rest.2)) <$> splitBody walk.depth.toNat walk.ahead

/-- A step of the walk is a call of the search in the search. -/
theorem found_of_step (h : Step walk next) (hdepth : 0 ≤ walk.depth) : next.found = walk.found := by
  have hadd : (walk.depth + 1).toNat = walk.depth.toNat + 1 := by omega
  cases h with
  | opening hahead =>
    simp only [found, pass, hahead, hadd, splitBody, if_true, Option.map_eq_map, Option.map_map]
    simp [Function.comp_def]
  | closing hahead hne =>
    obtain ⟨depth, hnat⟩ : ∃ depth, walk.depth.toNat = depth + 1 := ⟨(walk.depth - 1).toNat, by omega⟩
    have hsub : (walk.depth - 1).toNat = depth := by omega
    simp [found, pass, hahead, hnat, hsub, splitBody, Function.comp_def]
  | other hahead ho hc => simp [found, pass, hahead, splitBody, ho, hc, Function.comp_def]

/-- So at each point of the walk the search is still to find what it finds in all. -/
theorem Reaches.found_eq (h : Reaches (start offset text) walk) : walk.found = splitBody 0 text := by
  induction h with
  | refl => simp [found, start]
  | tail hreaches hstep ih => rw [found_of_step hstep (Reaches.sound hreaches).depth_nonneg, ih]

/-- A walk goes on until it stands at a closing brace where none is open, or at the end of the text. -/
theorem exists_end (walk : Walk) (hdepth : 0 ≤ walk.depth) :
    ∃ last, Reaches walk last ∧ (last.ahead = [] ∨ ∃ rest, last.ahead = '}' :: rest ∧ last.depth = 0) := by
  obtain ⟨passed, depth, offset, ahead⟩ := walk
  induction ahead generalizing passed depth offset with
  | nil => exact ⟨_, .refl, Or.inl rfl⟩
  | cons c ahead ih =>
    -- The rest of the walk begins behind the step at hand.
    have hgo : ∀ depth', 0 ≤ depth' →
        Step ⟨passed, depth, offset, c :: ahead⟩ (pass ⟨passed, depth, offset, c :: ahead⟩ c depth' ahead) →
        ∃ last, Reaches ⟨passed, depth, offset, c :: ahead⟩ last ∧
          (last.ahead = [] ∨ ∃ rest, last.ahead = '}' :: rest ∧ last.depth = 0) := by
      intro depth' hdepth' hstep
      obtain ⟨last, hreaches, hlast⟩ := ih (passed ++ [c]) depth' (offset + c.utf8Size) hdepth'
      exact ⟨last, .head hstep hreaches, hlast⟩
    by_cases ho : c = '{'
    · subst ho
      exact hgo (depth + 1) (by simp only at hdepth; omega) (.opening rfl)
    · by_cases hc : c = '}'
      · subst hc
        by_cases hzero : depth = 0
        · exact ⟨_, .refl, Or.inr ⟨ahead, rfl, hzero⟩⟩
        · exact hgo (depth - 1) (by simp only at hdepth; omega) (.closing rfl hzero)
      · exact hgo depth hdepth (.other rfl ho hc)

/-- A walk comes through every front of what it has passed. -/
theorem Reaches.exists_front (h : Reaches (start offset text) walk) {front : List Char} (hfront : front <+: walk.passed) :
    ∃ before, Reaches (start offset text) before ∧ before.passed = front := by
  induction h with
  | refl => exact ⟨_, .refl, (List.prefix_nil.1 hfront).symm⟩
  | @tail before after hreaches hstep ih =>
    obtain ⟨c, hpassed⟩ : ∃ c, after.passed = before.passed ++ [c] := by
      cases hstep <;> exact ⟨_, rfl⟩
    rw [hpassed, List.prefix_concat_iff] at hfront
    rcases hfront with rfl | hfront
    · exact ⟨after, .tail hreaches hstep, hpassed⟩
    · exact ih hfront

/-- So no front of what it has passed closes more braces than it opens. -/
theorem Reaches.count_le (h : Reaches (start offset text) walk) {front : List Char} (hfront : front <+: walk.passed) :
    front.count '}' ≤ front.count '{' := by
  obtain ⟨before, hbefore, rfl⟩ := h.exists_front hfront
  have hdepth := hbefore.sound.depth_eq
  have hnonneg := hbefore.sound.depth_nonneg
  omega

/-- A walk that stands at a closing brace where none is open has found the body. -/
theorem Reaches.splitBody_of_closing (h : Reaches (start offset text) walk) {rest : List Char}
    (hahead : walk.ahead = '}' :: rest) (hdepth : walk.depth = 0) : splitBody 0 text = some (walk.passed, rest) := by
  rw [← h.found_eq, found, hahead, hdepth]
  simp [splitBody]

/-- A walk that stands at the end of the text has found nothing. -/
theorem Reaches.splitBody_of_end (h : Reaches (start offset text) walk) (hahead : walk.ahead = []) :
    splitBody 0 text = none := by
  rw [← h.found_eq, found, hahead]
  rfl

/-- A body that is found is what a walk has passed up to the brace that closes it. -/
theorem reaches_closing {body rest : List Char} (h : splitBody 0 text = some (body, rest)) (offset : Nat) :
    Reaches (start offset text) ⟨body, 0, offset + byteLength body, '}' :: rest⟩ := by
  obtain ⟨last, hreaches, hend | ⟨behind, hahead, hdepth⟩⟩ := exists_end (start offset text) (Int.le_refl 0)
  · rw [hreaches.splitBody_of_end hend] at h
    cases h
  · have hoffset := hreaches.sound.offset_eq
    rw [hreaches.splitBody_of_closing hahead hdepth] at h
    cases h
    obtain ⟨passed, depth, place, ahead⟩ := last
    simp only at hahead hdepth hoffset
    rwa [hahead, hdepth, hoffset] at hreaches

/-- If nothing is found the walk has passed all of the text. -/
theorem reaches_end (h : splitBody 0 text = none) (offset : Nat) :
    ∃ depth, Reaches (start offset text) ⟨text, depth, offset + byteLength text, []⟩ := by
  obtain ⟨last, hreaches, hend | ⟨behind, hahead, hdepth⟩⟩ := exists_end (start offset text) (Int.le_refl 0)
  · have htext := hreaches.sound.text_eq
    have hoffset := hreaches.sound.offset_eq
    obtain ⟨passed, depth, place, ahead⟩ := last
    simp only at hend htext hoffset
    rw [hend, List.append_nil] at htext
    rw [htext] at hoffset
    rw [hend, htext, hoffset] at hreaches
    exact ⟨depth, hreaches⟩
  · rw [hreaches.splitBody_of_closing hahead hdepth] at h
    cases h

end Walk

/-! ## The first brace that closes -/

/-- Behind `body` stands a closing brace of the text with as many opening as closing braces in front of it. -/
def ClosedBehind (text body rest : List Char) : Prop :=
  text = body ++ '}' :: rest ∧ body.count '{' = body.count '}'

variable {text body rest : List Char}

/-- A walk does not pass a brace that closes. -/
theorem ClosedBehind.length_le {walk : Walk} {offset : Nat} (h : ClosedBehind text body rest)
    (hreaches : Walk.Reaches (Walk.start offset text) walk) : walk.passed.length ≤ body.length := by
  obtain ⟨rfl, hcount⟩ := h
  refine Nat.le_of_not_lt fun hlonger => ?_
  have hclosed : body ++ ['}'] <+: body ++ '}' :: rest := by simp
  have hpassed : walk.passed <+: body ++ '}' :: rest := ⟨walk.ahead, hreaches.sound.text_eq⟩
  have hfront : body ++ ['}'] <+: walk.passed :=
    List.prefix_of_prefix_length_le hclosed hpassed (by rw [List.length_append]; exact hlonger)
  have hle := hreaches.count_le hfront
  have hopening : List.count '{' ['}'] = 0 := rfl
  have hclosing : List.count '}' ['}'] = 1 := rfl
  rw [List.count_append, List.count_append, hcount, hopening, hclosing] at hle
  omega

/-- The body is what stands before the first brace that closes. -/
theorem splitBody_eq_some_iff_first : splitBody 0 text = some (body, rest) ↔
    ClosedBehind text body rest ∧ ∀ other behind, ClosedBehind text other behind → body <+: other := by
  constructor
  · intro h
    have hreaches := Walk.reaches_closing h 0
    obtain ⟨htext, -, hcount, -⟩ := hreaches.sound
    refine ⟨⟨htext.symm, by simp only at hcount; omega⟩, fun other behind hother => ?_⟩
    refine List.prefix_of_prefix_length_le ⟨'}' :: rest, htext⟩ ?_ (hother.length_le hreaches)
    exact ⟨'}' :: behind, hother.1.symm⟩
  · rintro ⟨hclosed, hfirst⟩
    obtain ⟨last, hreaches, hend | ⟨behind, hahead, hdepth⟩⟩ := Walk.exists_end (Walk.start 0 text) (Int.le_refl 0)
    · -- at the end of the text the walk would have passed the brace that closes
      have hlength := hclosed.length_le hreaches
      have htext := hreaches.sound.text_eq
      rw [hend, List.append_nil] at htext
      rw [htext, hclosed.1, List.length_append, List.length_cons] at hlength
      omega
    · obtain ⟨htext, -, hcount, -⟩ := hreaches.sound
      rw [hahead] at htext
      have hfront := hfirst last.passed behind ⟨htext.symm, by omega⟩
      have heq := hfront.eq_of_length_le (hclosed.length_le hreaches)
      rw [hreaches.splitBody_of_closing hahead hdepth, heq]
      rw [← heq, hclosed.1] at htext
      cases List.append_cancel_left htext
      rfl

/-- There is no body exactly if no brace closes. -/
theorem splitBody_eq_none_iff : splitBody 0 text = none ↔ ∀ body rest, ¬ClosedBehind text body rest := by
  constructor
  · intro h body rest hclosed
    obtain ⟨depth, hreaches⟩ := Walk.reaches_end h 0
    have hlength := hclosed.length_le hreaches
    rw [hclosed.1, List.length_append, List.length_cons] at hlength
    omega
  · intro h
    cases hfound : splitBody 0 text with
    | none => rfl
    | some found => exact absurd (splitBody_eq_some_iff_first.1 hfound).1 (h _ _)

/-! ## Where the scan goes on -/

/-- Behind an opening brace that is not doubled, the scan goes on behind the brace that closes. -/
theorem cutWithin_of_splitBody {text body rest : List Char} (h : splitBody 0 text = some (body, rest))
    (hhead : text.head? ≠ some '{') (fuel offset : Nat) :
    cutWithin (fuel + 1) offset ('{' :: text) =
      ⟨.placeholder body, ⟨offset, offset + byteLength (Item.placeholder body).spelling⟩⟩ ::
        cutWithin fuel (offset + byteLength (Item.placeholder body).spelling) rest := by
  obtain ⟨rfl, hcloses⟩ := splitBody_eq_some_iff.1 h
  have hvalid : (Item.placeholder body).IsValid := by
    refine ⟨balanced_iff_closes.2 hcloses, fun hbody => hhead ?_⟩
    rw [List.head?_append, hbody]
    rfl
  have hcut := cutWithin_spelling_append hvalid fuel offset rest
  rwa [Item.spelling, List.cons_append, List.append_assoc] at hcut

/-- The brace that closes a placeholder is found, wherever in a value its opening brace stands. On its way the search passes
the text character by character, and the braces that are open are counted and never less than none. It finds exactly the
first closing brace with as many opening as closing braces in front of it: the body is the text up to there and balanced, and
the scan goes on with the first character behind it. If there is no such brace all of the text is passed. -/
theorem matching_brace_found (front text : List Char) :
    (∀ walk, Walk.Reaches (Walk.start (byteLength (front ++ ['{'])) text) walk →
      walk.Sound (byteLength (front ++ ['{'])) text ∧ walk.found = splitBody 0 text) ∧
    (∀ body rest, splitBody 0 text = some (body, rest) ↔
      ClosedBehind text body rest ∧ ∀ other behind, ClosedBehind text other behind → body <+: other) ∧
    (∀ body rest, splitBody 0 text = some (body, rest) →
      Balanced body ∧
      Walk.Reaches (Walk.start (byteLength (front ++ ['{'])) text)
        ⟨body, 0, byteLength (front ++ '{' :: body), '}' :: rest⟩ ∧
      (text.head? ≠ some '{' → ∀ fuel, cutWithin (fuel + 1) (byteLength front) ('{' :: text) =
        ⟨.placeholder body, ⟨byteLength front, byteLength (front ++ '{' :: body) + 1⟩⟩ ::
          cutWithin fuel (byteLength (front ++ '{' :: (body ++ ['}']))) rest)) ∧
    (splitBody 0 text = none ↔ ∀ body rest, ¬ClosedBehind text body rest) ∧
    (splitBody 0 text = none →
      (∃ depth, Walk.Reaches (Walk.start (byteLength (front ++ ['{'])) text)
        ⟨text, depth, byteLength (front ++ '{' :: text), []⟩) ∧
      (text.head? ≠ some '{' → ∀ fuel, cutWithin (fuel + 1) (byteLength front) ('{' :: text) =
        [⟨.unterminated, ⟨byteLength front, byteLength (front ++ '{' :: text)⟩⟩])) := by
  have hplace : ∀ behind, byteLength (front ++ ['{']) + byteLength behind = byteLength (front ++ '{' :: behind) := by
    intro behind
    rw [← byteLength_append, List.append_assoc]
    rfl
  refine ⟨fun walk h => ⟨h.sound, h.found_eq⟩, fun body rest => splitBody_eq_some_iff_first, ?_, splitBody_eq_none_iff, ?_⟩
  · intro body rest h
    have hclosing := Walk.reaches_closing h (byteLength (front ++ ['{']))
    rw [hplace] at hclosing
    refine ⟨balanced_iff_closes.2 (splitBody_eq_some_iff.1 h).2, hclosing, fun hhead fuel => ?_⟩
    have hstop : byteLength (front ++ '{' :: body) + 1 = byteLength (front ++ '{' :: (body ++ ['}'])) := by
      have hclose : byteLength ['}'] = 1 := by decide
      rw [← List.cons_append, ← List.append_assoc, byteLength_append (front ++ _), hclose]
    rw [cutWithin_of_splitBody h hhead, hstop, byteLength_append]
    rfl
  · intro h
    obtain ⟨depth, hend⟩ := Walk.reaches_end h (byteLength (front ++ ['{']))
    rw [hplace] at hend
    refine ⟨⟨depth, hend⟩, fun hhead fuel => ?_⟩
    have hbroken : Broken ('{' :: text) .unterminated ('{' :: text) :=
      .unterminated hhead fun body rest htext hbalanced =>
        splitBody_eq_none_iff.1 h body rest ⟨htext, hbalanced.2.symm⟩
    rw [cutWithin_of_broken hbroken, byteLength_append]

/-- A body with braces in it and a character of two bytes, behind one of two bytes; and an opening brace that nothing closes. -/
theorem matching_brace_found_nested :
    splitBody 0 "m\x7bä\x7d\x7d\x7b".toList = some ("m\x7bä\x7d".toList, "\x7b".toList) ∧
      Walk.Reaches (Walk.start 3 "m\x7bä\x7d\x7d\x7b".toList) ⟨"m\x7bä\x7d".toList, 0, 8, "\x7d\x7b".toList⟩ ∧
      cutWithin 3 2 "\x7bm\x7bä\x7d\x7d\x7b".toList =
        [⟨.placeholder "m\x7bä\x7d".toList, ⟨2, 9⟩⟩, ⟨.unterminated, ⟨9, 10⟩⟩] := by
  have hfound : splitBody 0 "m\x7bä\x7d\x7d\x7b".toList = some ("m\x7bä\x7d".toList, "\x7b".toList) := by decide
  obtain ⟨-, -, hsome, -, -⟩ := matching_brace_found "é".toList "m\x7bä\x7d\x7d\x7b".toList
  obtain ⟨-, hreaches, hcut⟩ := hsome _ _ hfound
  obtain ⟨-, -, -, -, hnone⟩ := matching_brace_found "é\x7bm\x7bä\x7d\x7d".toList []
  have hrest := (hnone rfl).2 (by decide) 1
  refine ⟨hfound, hreaches, (hcut (by decide) 2).trans ?_⟩
  exact congrArg _ hrest

end PrivateLog.Template
