import PrivateLog.Format.Render
import PrivateLog.Proofs.Format.Spelling

/-!
# Pieces of format strings

What the markers among some pieces ask for, in order (`policies`), and what a text does that is put in front of pieces
(`prepend`): it adds its characters and no marker, and pieces that are merged stay so.
-/

namespace PrivateLog.Format

/-! ## Policies of markers -/

/-- The policies of the markers among some pieces, in order. -/
def policies : List Piece → List DisplayPolicy
  | [] => []
  | .literal _ :: pieces => policies pieces
  | .value policy :: pieces => policy :: policies pieces

/-- There are as many markers as policies of markers. -/
theorem length_policies (pieces : List Piece) : (policies pieces).length = markerCount pieces := by
  induction pieces with
  | nil => rfl
  | cons piece pieces ih =>
    cases piece with
    | literal text => simpa [policies, markerCount] using ih
    | value policy => simpa [policies, markerCount] using ih

/-- A policy is that of a marker exactly if the marker is there. -/
theorem mem_policies_iff {policy : DisplayPolicy} {pieces : List Piece} :
    policy ∈ policies pieces ↔ .value policy ∈ pieces := by
  induction pieces with
  | nil => simp [policies]
  | cons piece pieces ih => cases piece <;> simp [policies, ih]

/-! ## A text in front -/

/-- Some pieces with a text in front: it joins the text that they begin with, and an empty one adds nothing. -/
def prepend (text : String) : List Piece → List Piece
  | .literal next :: pieces => .literal (text ++ next) :: pieces
  | pieces => if text = "" then pieces else .literal text :: pieces

/-- A text in front adds its characters in front. -/
theorem flatMap_marks_prepend (text : String) (pieces : List Piece) :
    (prepend text pieces).flatMap Piece.marks = text.toList.map .character ++ pieces.flatMap Piece.marks := by
  unfold prepend
  split
  · simp [Piece.marks]
  · split
    · rename_i h
      simp [h]
    · simp [Piece.marks]

/-- A text in front keeps pieces merged. -/
theorem merged_prepend (text : String) {pieces : List Piece} (h : Runs.Merged (pieces.map Piece.part)) :
    Runs.Merged ((prepend text pieces).map Piece.part) := by
  unfold prepend
  split
  · rename_i next pieces
    obtain ⟨hne, hhead, hrest⟩ := h
    refine ⟨fun he => hne ?_, hhead, hrest⟩
    exact (String.append_eq_empty_iff.1 he).2
  · rename_i hfirst
    split
    · exact h
    · rename_i hne
      refine ⟨hne, fun next hn => ?_, h⟩
      cases pieces with
      | nil => cases hn
      | cons piece pieces =>
        cases piece with
        | literal other => exact hfirst other pieces rfl
        | value policy => cases hn

/-- A text in front has no marker. -/
theorem policies_prepend (text : String) (pieces : List Piece) : policies (prepend text pieces) = policies pieces := by
  unfold prepend
  split
  · rfl
  · split <;> rfl

end PrivateLog.Format
