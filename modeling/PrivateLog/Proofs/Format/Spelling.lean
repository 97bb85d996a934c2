import PrivateLog.Format.Basic
import PrivateLog.Proofs.Outcome
import PrivateLog.Proofs.Runs

/-!
# Spelling format strings

Every mark of a format string has one spelling, and reading takes it back. What has been begun is a piece of spelling too
(`State.pending`), so each step of the reader moves one character from the text to what is spelled out, and no character is
ever lost (`pending_append_of_step`, `pending_append_of_scan`). `marks_eq_ok_iff` follows: a text stands for some marks
exactly if it is their spelling. `parse_eq_ok_iff` says the same of pieces, which are merged in addition.
-/

namespace PrivateLog

/-- The marker of a policy in a format string. -/
def DisplayPolicy.marker (policy : DisplayPolicy) : List Char :=
  match policy.qualifier? with
  | none => ['%', 's']
  | some qualifier => '%' :: '{' :: (qualifier.toList ++ ['}', 's'])

namespace Format

/-- The characters that stand for a mark. -/
def Mark.spelling : Mark → List Char
  | .character c => if c = '%' then ['%', '%'] else [c]
  | .value policy => policy.marker

/-- The characters that have been read since the last mark was complete. -/
def State.pending : State → List Char
  | .text => []
  | .percent _ => ['%']
  | .qualifier _ name => '%' :: '{' :: name.reverse
  | .closed _ name => '%' :: '{' :: (name.reverse ++ ['}'])

/-! ## Reading loses nothing -/

/-- A policy that a word marks is marked by this word. -/
theorem marker_of_ofQualifier? {qualifier : String} {policy : DisplayPolicy}
    (h : DisplayPolicy.ofQualifier? qualifier = some policy) :
    policy.marker = '%' :: '{' :: (qualifier.toList ++ ['}', 's']) := by
  rw [DisplayPolicy.marker, DisplayPolicy.ofQualifier?_eq_some_iff.1 h]

/-- What has been begun and the next character are the spelling of what is complete with it, and what is begun then. -/
theorem pending_append_of_step {offset : Nat} {c : Char} {state next : State} {mark? : Option Mark}
    (h : step offset c state = .ok (next, mark?)) :
    state.pending ++ [c] = mark?.toList.flatMap Mark.spelling ++ next.pending := by
  cases state with
  | text =>
    simp only [step] at h
    split at h
    · rename_i hc
      cases h
      simp [State.pending, hc]
    · rename_i hc
      cases h
      simp [State.pending, Mark.spelling, hc]
  | percent start =>
    simp only [step] at h
    split at h
    · rename_i hc
      cases h
      simp [State.pending, Mark.spelling, hc]
    · split at h
      · rename_i hc
        cases h
        simp [State.pending, Mark.spelling, DisplayPolicy.marker, DisplayPolicy.qualifier?, hc]
      · split at h
        · rename_i hc
          cases h
          simp [State.pending, hc]
        · cases h
  | qualifier start name =>
    simp only [step] at h
    split at h
    · rename_i hc
      cases h
      simp [State.pending, hc]
    · cases h
      simp [State.pending]
  | closed start name =>
    simp only [step] at h
    split at h
    · rename_i hc
      split at h
      · rename_i policy hp
        cases h
        simp [State.pending, Mark.spelling, marker_of_ofQualifier? hp, hc]
      · cases h
    · cases h

/-- What has been begun and a text are the spelling of the marks read from it, and what is begun at its end. -/
theorem pending_append_of_scan {state last : State} {offset : Nat} {text : List Char} {found : List Mark}
    (h : scan state offset text = .ok (found, last)) :
    state.pending ++ text = found.flatMap Mark.spelling ++ last.pending := by
  induction text generalizing state offset found with
  | nil =>
    cases h
    simp
  | cons c text ih =>
    obtain ⟨⟨next, mark?⟩, hs, h⟩ := Outcome.bind_eq_ok_iff.1 h
    obtain ⟨⟨more, final⟩, hr, h⟩ := Outcome.bind_eq_ok_iff.1 h
    cases h
    calc
      state.pending ++ c :: text = (state.pending ++ [c]) ++ text := by simp
      _ = mark?.toList.flatMap Mark.spelling ++ (next.pending ++ text) := by
        rw [pending_append_of_step hs, List.append_assoc]
      _ = (mark?.toList ++ more).flatMap Mark.spelling ++ last.pending := by
        rw [ih hr, List.flatMap_append, List.append_assoc]

/-! ## Every spelling is read -/

/-- The spelling of a mark is read as this mark. -/
theorem scan_spelling (offset : Nat) (mark : Mark) : scan .text offset mark.spelling = .ok ([mark], .text) := by
  cases mark with
  | character c =>
    by_cases hc : c = '%'
    · subst hc
      rfl
    · simp [Mark.spelling, scan, step, hc]
  | value policy => cases policy <;> rfl

/-- The spelling of marks is read as these marks. -/
theorem scan_flatMap_spelling (offset : Nat) (found : List Mark) :
    scan .text offset (found.flatMap Mark.spelling) = .ok (found, .text) := by
  induction found generalizing offset with
  | nil => rfl
  | cons mark found ih => simp [scan_append, scan_spelling, ih]

/-- A format ends well only between marks. -/
theorem finish_eq_ok_iff {state : State} : finish state = .ok () ↔ state = .text := by
  cases state <;> simp [finish]

/-- A text stands for some marks exactly if it is their spelling. -/
theorem marks_eq_ok_iff {text : List Char} {found : List Mark} :
    marks text = .ok found ↔ text = found.flatMap Mark.spelling := by
  constructor
  · intro h
    obtain ⟨⟨more, last⟩, hs, h⟩ := Outcome.bind_eq_ok_iff.1 h
    obtain ⟨_, hf, h⟩ := Outcome.bind_eq_ok_iff.1 h
    cases h
    have hl := finish_eq_ok_iff.1 hf
    subst hl
    simpa [State.pending] using pending_append_of_scan hs
  · rintro rfl
    simp [marks, scan_flatMap_spelling, finish]

/-! ## Pieces -/

/-- A mark as a character, or as something else. -/
def Mark.part : Mark → Char ⊕ DisplayPolicy
  | .character c => .inl c
  | .value policy => .inr policy

/-- A piece as a text, or as something else. -/
def Piece.part : Piece → String ⊕ DisplayPolicy
  | .literal text => .inl text
  | .value policy => .inr policy

/-- The marks that make up a piece. -/
def Piece.marks : Piece → List Mark
  | .literal text => text.toList.map .character
  | .value policy => [.value policy]

/-- The characters that stand for a piece. -/
def Piece.spelling (piece : Piece) : List Char :=
  piece.marks.flatMap Mark.spelling

/-- Different marks are different parts. -/
theorem Mark.part_injective : Function.Injective Mark.part := by
  intro a b h
  cases a <;> cases b <;> cases h <;> rfl

/-- Different pieces are different parts. -/
theorem Piece.part_injective : Function.Injective Piece.part := by
  intro a b h
  cases a <;> cases b <;> cases h <;> rfl

/-- The parts of the pieces spread out to those of their marks. -/
theorem spread_map_part (pieces : List Piece) :
    Runs.spread (pieces.map Piece.part) = (pieces.flatMap Piece.marks).map Mark.part := by
  induction pieces with
  | nil => rfl
  | cons piece pieces ih =>
    cases piece with
    | literal text => simp [Piece.part, Piece.marks, Mark.part, Runs.spread, ih, Function.comp_def]
    | value policy => simp [Piece.part, Piece.marks, Mark.part, Runs.spread, ih]

/-- The literal piece of a run is its text. -/
theorem map_part_literalOf (run : List Char) : (literalOf run).map Piece.part = Runs.literalOf run := by
  cases run <;> rfl

/-- Gathering marks into pieces is gathering runs. -/
theorem map_part_gather (run : List Char) (found : List Mark) :
    (gather run found).map Piece.part = Runs.gather run (found.map Mark.part) := by
  induction found generalizing run with
  | nil => exact map_part_literalOf run.reverse
  | cons mark found ih =>
    cases mark with
    | character c => exact ih (c :: run)
    | value policy =>
      rw [gather, List.map_append, map_part_literalOf, List.map_cons, ih]
      rfl

/-- Pieces are gathered from some marks exactly if they are merged and made up of these marks. -/
theorem gather_eq_iff {found : List Mark} {pieces : List Piece} :
    gather [] found = pieces ↔ Runs.Merged (pieces.map Piece.part) ∧ pieces.flatMap Piece.marks = found := by
  rw [← (List.map_injective_iff.2 Piece.part_injective).eq_iff, map_part_gather, Runs.gather_eq_iff,
    spread_map_part, (List.map_injective_iff.2 Mark.part_injective).eq_iff]

/-- A format is read as some pieces exactly if they are merged and it is their spelling. -/
theorem parse_eq_ok_iff {format : String} {pieces : List Piece} :
    parse format = .ok pieces ↔
      Runs.Merged (pieces.map Piece.part) ∧ format.toList = pieces.flatMap Piece.spelling := by
  have hspelling : pieces.flatMap Piece.spelling = (pieces.flatMap Piece.marks).flatMap Mark.spelling := by
    rw [List.flatMap_assoc]
    rfl
  rw [hspelling]
  constructor
  · intro h
    obtain ⟨found, hm, hg⟩ := Outcome.map_eq_ok_iff.1 h
    obtain ⟨hmerged, rfl⟩ := gather_eq_iff.1 hg
    exact ⟨hmerged, marks_eq_ok_iff.1 hm⟩
  · rintro ⟨hmerged, htext⟩
    exact Outcome.map_eq_ok_iff.2 ⟨_, marks_eq_ok_iff.2 htext, gather_eq_iff.2 ⟨hmerged, rfl⟩⟩

end Format

end PrivateLog
