/-!
# Blank characters

The characters that separate words, as the Unicode property White_Space lists them, and cutting them off both ends of a
text. `trim_eq_nil_iff` says that a text is cut away completely exactly if it is blank all through, `trim_trim` that nothing
is left to cut, `exists_trim_append` and `isBlank_or_mem_trim` that only blanks go.
-/

namespace PrivateLog.Text

/-- The Unicode property White_Space. -/
def isBlank (c : Char) : Bool :=
  let code := c.toNat
  (9 ≤ code && code ≤ 13) || code == 0x20 || code == 0x85 || code == 0xA0 || code == 0x1680 ||
    (0x2000 ≤ code && code ≤ 0x200A) || code == 0x2028 || code == 0x2029 || code == 0x202F || code == 0x205F ||
    code == 0x3000

/-- The text without the blanks it begins with. -/
def trimStart (text : List Char) : List Char :=
  text.dropWhile isBlank

/-- The text without the blanks it ends with. -/
def trimEnd (text : List Char) : List Char :=
  (text.reverse.dropWhile isBlank).reverse

/-- The text without the blanks at either end. -/
def trim (text : List Char) : List Char :=
  trimEnd (trimStart text)

/-- Core's whitespace is blank. -/
theorem isBlank_of_isWhitespace {c : Char} (h : c.isWhitespace = true) : isBlank c = true := by
  simp only [Char.isWhitespace, Bool.or_eq_true, decide_eq_true_eq] at h
  rcases h with ((rfl | rfl) | rfl) | rfl <;> decide

/-- A text whose first character is not blank keeps its beginning. -/
theorem trimStart_cons {c : Char} {text : List Char} (h : isBlank c = false) : trimStart (c :: text) = c :: text := by
  simp [trimStart, h]

/-- A blank at the beginning goes. -/
theorem trimStart_cons_of_isBlank {c : Char} {text : List Char} (h : isBlank c = true) :
    trimStart (c :: text) = trimStart text := by
  simp [trimStart, h]

/-- Exactly the blank texts have nothing left when the blanks at their beginning go. -/
theorem trimStart_eq_nil_iff {text : List Char} : trimStart text = [] ↔ ∀ c ∈ text, isBlank c = true := by
  induction text with
  | nil => simp [trimStart]
  | cons c text ih =>
    cases hc : isBlank c with
    | true =>
      rw [trimStart_cons_of_isBlank hc, ih]
      simp [hc]
    | false => simp [trimStart_cons hc, hc]

/-- What is left begins with a character that is not blank. -/
theorem isBlank_of_trimStart_eq_cons {c : Char} {text rest : List Char} (h : trimStart text = c :: rest) :
    isBlank c = false := by
  induction text with
  | nil => simp [trimStart] at h
  | cons d text ih =>
    cases hd : isBlank d with
    | true =>
      rw [trimStart_cons_of_isBlank hd] at h
      exact ih h
    | false =>
      rw [trimStart_cons hd] at h
      cases h
      exact hd

/-- Exactly the blank texts are cut away completely. -/
theorem trim_eq_nil_iff {text : List Char} : trim text = [] ↔ ∀ c ∈ text, isBlank c = true := by
  rw [← trimStart_eq_nil_iff]
  constructor
  · intro h
    cases hs : trimStart text with
    | nil => rfl
    | cons c rest =>
      have hall : ∀ d ∈ (trimStart text).reverse, isBlank d = true :=
        trimStart_eq_nil_iff.1 (List.reverse_eq_nil_iff.1 h)
      have hc := hall c (by simp [hs])
      rw [isBlank_of_trimStart_eq_cons hs] at hc
      cases hc
  · intro h
    simp [trim, trimEnd, h]

/-- A character that is not blank stays with all that is in front of it when the blanks at the end go. -/
theorem trimEnd_append_cons {c : Char} (before behind : List Char) (h : isBlank c = false) :
    trimEnd (before ++ c :: behind) = before ++ c :: trimEnd behind := by
  have hstart : trimStart (c :: before.reverse) = c :: before.reverse := trimStart_cons h
  rw [trimStart] at hstart
  simp only [trimEnd, List.reverse_append, List.reverse_cons, List.append_assoc, List.singleton_append,
    List.dropWhile_append, hstart]
  split
  · rename_i hempty
    simp [List.isEmpty_iff.1 hempty]
  · simp

/-- A first character that is not blank stays when the blanks at the end go. -/
theorem trimEnd_cons {c : Char} (text : List Char) (h : isBlank c = false) : trimEnd (c :: text) = c :: trimEnd text :=
  trimEnd_append_cons [] text h

/-- What goes at the end is blank. -/
theorem exists_trimEnd_append (text : List Char) :
    ∃ blanks, (∀ c ∈ blanks, isBlank c = true) ∧ text = trimEnd text ++ blanks := by
  refine ⟨(text.reverse.takeWhile isBlank).reverse, fun c hc => ?_, ?_⟩
  · exact List.all_eq_true.1 List.all_takeWhile c (List.mem_reverse.1 hc)
  · rw [trimEnd, ← List.reverse_append, List.takeWhile_append_dropWhile, List.reverse_reverse]

/-- A text is what is left of it, between the blanks that go at either end. -/
theorem exists_trim_append (text : List Char) :
    ∃ blanks, (∀ c ∈ blanks, isBlank c = true) ∧ text = text.takeWhile isBlank ++ (trim text ++ blanks) := by
  obtain ⟨blanks, hblanks, hstart⟩ := exists_trimEnd_append (trimStart text)
  refine ⟨blanks, hblanks, ?_⟩
  rw [trim, ← hstart, trimStart, List.takeWhile_append_dropWhile]

/-- Cutting off the blanks at the end twice is cutting them off once. -/
theorem trimEnd_trimEnd (text : List Char) : trimEnd (trimEnd text) = trimEnd text := by
  have h : trimStart (trimStart text.reverse) = trimStart text.reverse := by
    cases hs : trimStart text.reverse with
    | nil => rfl
    | cons c rest => exact trimStart_cons (isBlank_of_trimStart_eq_cons hs)
  simpa [trimEnd, trimStart] using h

/-- A text without blanks at either end stays as it is. -/
theorem trim_trim (text : List Char) : trim (trim text) = trim text := by
  have h : trimStart (trimEnd (trimStart text)) = trimEnd (trimStart text) := by
    cases hs : trimStart text with
    | nil => rfl
    | cons c rest =>
      have hc := isBlank_of_trimStart_eq_cons hs
      rw [trimEnd_cons rest hc, trimStart_cons hc]
  rw [trim, trim, h, trimEnd_trimEnd]

/-- A blank on either side of a text goes. -/
theorem trim_cons_append {c d : Char} (text : List Char) (hc : isBlank c = true) (hd : isBlank d = true) :
    trim (c :: (text ++ [d])) = trim text := by
  have hstart : trimStart (c :: (text ++ [d])) = if (trimStart text).isEmpty then [] else trimStart text ++ [d] := by
    rw [trimStart_cons_of_isBlank hc, trimStart, List.dropWhile_append, trimStart]
    simp [hd]
  rw [trim, hstart, trim]
  split
  · rename_i hempty
    rw [List.isEmpty_iff.1 hempty]
  · simp [trimEnd, hd]

/-- Blanks around a text go with those at its ends. -/
theorem trim_append_of_isBlank {before behind : List Char} (hbefore : ∀ c ∈ before, isBlank c = true)
    (hbehind : ∀ c ∈ behind, isBlank c = true) (text : List Char) : trim (before ++ (text ++ behind)) = trim text := by
  have hstart : trimStart (before ++ (text ++ behind)) = trimStart (text ++ behind) :=
    List.dropWhile_append_of_pos hbefore
  have hend : ∀ text, trimEnd (text ++ behind) = trimEnd text := fun text => by
    rw [trimEnd, List.reverse_append, List.dropWhile_append_of_pos fun c hc => hbehind c (List.mem_reverse.1 hc), trimEnd]
  rw [trim, hstart, trim]
  cases hs : trimStart text with
  | nil =>
    have hall : ∀ c ∈ text ++ behind, isBlank c = true :=
      List.forall_mem_append.2 ⟨trimStart_eq_nil_iff.1 hs, hbehind⟩
    rw [trimStart_eq_nil_iff.2 hall]
  | cons c rest =>
    have happend : trimStart (text ++ behind) = trimStart text ++ behind := by
      rw [trimStart, List.dropWhile_append, ← trimStart, hs]
      rfl
    rw [happend, hend, hs]

/-- Blanks around a text that holds none go. -/
theorem trim_append_append {before text behind : List Char} (hbefore : ∀ c ∈ before, isBlank c = true)
    (hbehind : ∀ c ∈ behind, isBlank c = true) (htext : ∀ c ∈ text, isBlank c = false) :
    trim (before ++ (text ++ behind)) = text := by
  rw [trim_append_of_isBlank hbefore hbehind]
  cases text with
  | nil => rfl
  | cons c text =>
    have hlast := htext _ (List.getLast_mem (List.cons_ne_nil c text))
    rw [trim, trimStart_cons (htext c List.mem_cons_self), ← List.dropLast_concat_getLast (List.cons_ne_nil c text),
      trimEnd_append_cons _ [] hlast]
    rfl

/-- The blanks that a text begins with are all that is cut off there. -/
theorem isBlank_or_mem_trimStart {c : Char} {text : List Char} (h : c ∈ text) :
    isBlank c = true ∨ c ∈ trimStart text := by
  rw [← List.takeWhile_append_dropWhile (p := isBlank) (l := text), List.mem_append] at h
  rcases h with h | h
  · exact Or.inl (List.all_eq_true.1 List.all_takeWhile c h)
  · exact Or.inr h

/-- Only blanks are cut off. -/
theorem isBlank_or_mem_trim {c : Char} {text : List Char} (h : c ∈ text) : isBlank c = true ∨ c ∈ trim text := by
  rcases isBlank_or_mem_trimStart h with hc | hc
  · exact Or.inl hc
  · have hr := isBlank_or_mem_trimStart (List.mem_reverse.2 hc)
    rcases hr with hr | hr
    · exact Or.inl hr
    · exact Or.inr (List.mem_reverse.2 hr)

end PrivateLog.Text
