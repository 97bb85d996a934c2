/-!
# Runs of characters

Format strings and templates are both read into parts: characters that stand next to one another become one text, and
anything else stands for itself. `gather` is that step without the rest of either reader, and `Merged` says what its results
look like: no text is empty and no two texts are neighbours. `gather_eq_iff` makes the two one: a list of parts is gathered
from some marks exactly if it is merged and spreads out to them. So a text that is read into parts has one reading only.
-/

namespace PrivateLog.Runs

variable {γ : Type}

/-- The text that some characters make up, if there are any. -/
def literalOf (characters : List Char) : List (String ⊕ γ) :=
  if characters.isEmpty then [] else [.inl (String.ofList characters)]

/-- Gathers runs of characters into texts; `run` holds those of the run at hand, last first. -/
def gather (run : List Char) : List (Char ⊕ γ) → List (String ⊕ γ)
  | [] => literalOf run.reverse
  | .inl c :: marks => gather (c :: run) marks
  | .inr x :: marks => literalOf run.reverse ++ .inr x :: gather [] marks

/-- The characters of some parts one by one. -/
def spread : List (String ⊕ γ) → List (Char ⊕ γ)
  | [] => []
  | .inl text :: parts => text.toList.map .inl ++ spread parts
  | .inr x :: parts => .inr x :: spread parts

/-- No text is empty, and no two texts are neighbours. -/
def Merged : List (String ⊕ γ) → Prop
  | [] => True
  | .inl text :: parts => text ≠ "" ∧ (∀ next, parts.head? ≠ some (.inl next)) ∧ Merged parts
  | .inr _ :: parts => Merged parts

/-- The characters in front of the marks join the run at hand. -/
theorem gather_map_inl (run characters : List Char) (marks : List (Char ⊕ γ)) :
    gather run (characters.map .inl ++ marks) = gather (characters.reverse ++ run) marks := by
  induction characters generalizing run with
  | nil => rfl
  | cons c characters ih =>
    rw [List.map_cons, List.cons_append, gather, ih, List.reverse_cons, List.append_assoc]
    rfl

/-- A run in front of parts spreads out to its characters. -/
theorem spread_literalOf_append (run : List Char) (parts : List (String ⊕ γ)) :
    spread (literalOf run ++ parts) = run.map .inl ++ spread parts := by
  cases run with
  | nil => rfl
  | cons c run => simp [literalOf, spread]

/-- Gathering loses nothing: the parts spread out to the run at hand and the marks. -/
theorem spread_gather (run : List Char) (marks : List (Char ⊕ γ)) :
    spread (gather run marks) = run.reverse.map .inl ++ marks := by
  induction marks generalizing run with
  | nil =>
    have h := spread_literalOf_append run.reverse ([] : List (String ⊕ γ))
    simpa [gather, spread] using h
  | cons mark marks ih =>
    cases mark with
    | inl c => simp [gather, ih]
    | inr x => rw [gather, spread_literalOf_append, spread, ih]; rfl

/-- A run in front of merged parts that begin with no text leaves them merged. -/
theorem merged_literalOf_append (run : List Char) (parts : List (String ⊕ γ))
    (hhead : ∀ next, parts.head? ≠ some (.inl next)) (h : Merged parts) : Merged (literalOf run ++ parts) := by
  cases run with
  | nil => exact h
  | cons c run =>
    refine ⟨fun hempty => ?_, hhead, h⟩
    have := congrArg String.toList hempty
    simp at this

/-- Parts behind one another are merged exactly if both are and no two texts meet. -/
theorem merged_append_iff {front behind : List (String ⊕ γ)} :
    Merged (front ++ behind) ↔
      Merged front ∧ Merged behind ∧ ∀ a b, front.getLast? = some (.inl a) → behind.head? ≠ some (.inl b) := by
  induction front with
  | nil => simp [Merged]
  | cons part front ih =>
    cases part with
    | inr x =>
      rw [List.cons_append, Merged, ih, Merged]
      cases front with
      | nil => simp
      | cons next front => simp
    | inl text =>
      cases front with
      | cons next front =>
        rw [List.cons_append, Merged, ih, Merged]
        simp [and_assoc]
      | nil =>
        constructor
        · rintro ⟨hne, hhead, hbehind⟩
          exact ⟨⟨hne, by simp, trivial⟩, hbehind, fun _ b _ => hhead b⟩
        · rintro ⟨⟨hne, -, -⟩, hbehind, hmeet⟩
          exact ⟨hne, fun b => hmeet text b rfl, hbehind⟩

/-- What is gathered is merged. -/
theorem merged_gather (run : List Char) (marks : List (Char ⊕ γ)) : Merged (gather run marks) := by
  induction marks generalizing run with
  | nil =>
    have h := merged_literalOf_append run.reverse ([] : List (String ⊕ γ)) (by simp) trivial
    simpa [gather] using h
  | cons mark marks ih =>
    cases mark with
    | inl c => exact ih (c :: run)
    | inr x => exact merged_literalOf_append run.reverse _ (by simp) (ih [])

/-- Merged parts are gathered again from what they spread out to. -/
theorem gather_spread {parts : List (String ⊕ γ)} (h : Merged parts) : gather [] (spread parts) = parts := by
  induction parts with
  | nil => rfl
  | cons part parts ih =>
    cases part with
    | inr x => rw [spread, gather, ih h]; rfl
    | inl text =>
      obtain ⟨hne, hhead, hrest⟩ := h
      have hrun : text.toList.isEmpty = false := by
        cases hl : text.toList with
        | nil => exact absurd (String.toList_eq_nil_iff.1 hl) hne
        | cons c rest => rfl
      have hlit : literalOf (text.toList.reverse ++ []).reverse = [(.inl text : String ⊕ γ)] := by
        simp [literalOf, hrun]
      rw [spread, gather_map_inl]
      -- The part behind the text is none or no text, so the run ends where the text does.
      cases parts with
      | nil => rw [spread, gather, hlit]
      | cons next parts =>
        cases next with
        | inl other => exact absurd rfl (hhead other)
        | inr x =>
          have hx := ih hrest
          rw [spread, gather] at hx
          rw [spread, gather, hlit, (List.cons.inj hx).2]
          rfl

/-- Parts are gathered from some marks exactly if they are merged and spread out to them. -/
theorem gather_eq_iff {marks : List (Char ⊕ γ)} {parts : List (String ⊕ γ)} :
    gather [] marks = parts ↔ Merged parts ∧ spread parts = marks := by
  constructor
  · rintro rfl
    exact ⟨merged_gather [] marks, spread_gather [] marks⟩
  · rintro ⟨hm, rfl⟩
    exact gather_spread hm

end PrivateLog.Runs
