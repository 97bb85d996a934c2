import PrivateLog.Logger

/-!
# What a logger shows

Of the texts that it keeps a logger makes one text, with a line break between each two (`Logger.joined_eq`), or lines on the
console, each with a line break behind it (`Logger.printed_eq`). Apart from the last line break this is the same.
-/

namespace PrivateLog

namespace Lines

/-- Texts one behind another, with a line break between each two. -/
def separated : List String → String
  | [] => ""
  | [text] => text
  | text :: texts => text ++ "\n" ++ separated texts

/-- Texts one behind another, with a line break behind each. -/
def ended : List String → String
  | [] => ""
  | text :: texts => text ++ "\n" ++ ended texts

end Lines

namespace Logger

variable (text : String) (lines : List String)

/-- The lines that the console shows, one by one. -/
theorem printed_cons : printed (text :: lines) = text ++ "\n" ++ printed lines := by
  rw [printed, List.map_cons, String.join_cons]
  rfl

/-- The console shows each text with a line break behind it. -/
theorem printed_eq : printed lines = Lines.ended lines := by
  induction lines with
  | nil => rfl
  | cons text lines ih => rw [printed_cons, Lines.ended, ih]

/-- A drained text is what the console shows, but for the last line break. -/
theorem joined_append_lineBreak (h : lines ≠ []) : joined lines ++ "\n" = printed lines := by
  induction lines with
  | nil => exact absurd rfl h
  | cons text lines ih =>
    rw [printed_cons]
    by_cases hlines : lines = []
    · subst hlines
      simp [joined, printed]
    · rw [← ih hlines, joined, String.intercalate_cons_of_ne_nil hlines, String.append_assoc]
      rfl

/-- It holds a line break between each two texts. -/
theorem joined_eq : joined lines = Lines.separated lines := by
  induction lines with
  | nil => rfl
  | cons text lines ih =>
    cases lines with
    | nil => exact String.intercalate_singleton
    | cons next lines =>
      have hseparated : Lines.separated (text :: next :: lines) = text ++ "\n" ++ Lines.separated (next :: lines) := rfl
      rw [hseparated, ← ih, joined, String.intercalate_cons_of_ne_nil (List.cons_ne_nil next lines)]
      rfl

/-- A drained text is cut into the texts again at its line breaks, if none of them holds one. -/
theorem splitOn_joined (h : lines ≠ []) (hbreak : ∀ line ∈ lines, '\n' ∉ line.toList) :
    (joined lines).toList.splitOn '\n' = lines.map String.toList := by
  rw [joined, String.toList_intercalate]
  exact List.splitOn_intercalate '\n' (List.forall_mem_map.2 hbreak) (by simpa using h)

end Logger

end PrivateLog
