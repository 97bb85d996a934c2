import PrivateLog.Format.Render
import PrivateLog.Proofs.Format.Spelling

/-!
# Other markers in a format

The markers in the text of a format can be replaced by others where they stand (`remark`). A percent sign that is doubled is
no marker, whatever follows it, so a format that is read well is read well with other markers too: its texts stay, and its
markers are the new ones (`parse_remarked`). Rendering asks a marker only whether it shows its argument, and with private
values revealed it does not even ask that. `render_remarked` says what follows for whole formats.
-/

namespace PrivateLog.Format

/-! ## Replacing markers -/

/-- The text of a format with other markers: the marker with `k` markers in front of it, of the policy `p`, becomes that of the
policy `choose k p`. Everything else is copied. -/
def remark (choose : Nat → DisplayPolicy → DisplayPolicy) : Nat → List Char → List Char
  | _, [] => []
  | k, '%' :: '%' :: text => '%' :: '%' :: remark choose k text
  | k, '%' :: 's' :: text => (choose k .unmarked).marker ++ remark choose (k + 1) text
  | k, '%' :: '{' :: 'p' :: 'u' :: 'b' :: 'l' :: 'i' :: 'c' :: '}' :: 's' :: text =>
    (choose k .shown).marker ++ remark choose (k + 1) text
  | k, '%' :: '{' :: 'p' :: 'r' :: 'i' :: 'v' :: 'a' :: 't' :: 'e' :: '}' :: 's' :: text =>
    (choose k .withheld).marker ++ remark choose (k + 1) text
  | k, c :: text => c :: remark choose k text

/-- A format with other markers. -/
def remarked (choose : Nat → DisplayPolicy → DisplayPolicy) (format : String) : String :=
  String.ofList (remark choose 0 format.toList)

/-- Pieces with other markers. -/
def remarkPieces (choose : Nat → DisplayPolicy → DisplayPolicy) : Nat → List Piece → List Piece
  | _, [] => []
  | k, .literal text :: pieces => .literal text :: remarkPieces choose k pieces
  | k, .value policy :: pieces => .value (choose k policy) :: remarkPieces choose (k + 1) pieces

variable (choose : Nat → DisplayPolicy → DisplayPolicy)

/-- A marker is replaced. -/
theorem remark_marker_append (k : Nat) (policy : DisplayPolicy) (text : List Char) :
    remark choose k (policy.marker ++ text) = (choose k policy).marker ++ remark choose (k + 1) text := by
  cases policy <;> rfl

/-- The spelling of a text is copied, even where the text reads like a marker. -/
theorem remark_literal_append (k : Nat) (literal : String) (text : List Char) :
    remark choose k ((Piece.literal literal).spelling ++ text) = (Piece.literal literal).spelling ++ remark choose k text := by
  simp only [Piece.spelling, Piece.marks]
  induction literal.toList with
  | nil => rfl
  | cons c characters ih =>
    by_cases hc : c = '%'
    · subst hc
      simpa [Mark.spelling, remark] using ih
    · simpa [Mark.spelling, remark, hc] using ih

/-- Replacing the markers in the spelling of pieces is replacing those of the pieces. -/
theorem remark_flatMap_spelling (k : Nat) (pieces : List Piece) :
    remark choose k (pieces.flatMap Piece.spelling) = (remarkPieces choose k pieces).flatMap Piece.spelling := by
  induction pieces generalizing k with
  | nil => rfl
  | cons piece pieces ih =>
    cases piece with
    | literal text => rw [List.flatMap_cons, remark_literal_append, ih, remarkPieces, List.flatMap_cons]
    | value policy =>
      have hspelling : ∀ p, (Piece.value p).spelling = p.marker := fun p => by simp [Piece.spelling, Piece.marks, Mark.spelling]
      rw [List.flatMap_cons, hspelling, remark_marker_append, ih, remarkPieces, List.flatMap_cons, hspelling]

/-- Pieces with other markers begin with a text exactly if the pieces do. -/
theorem head?_remarkPieces (k : Nat) (pieces : List Piece) (text : String) :
    ((remarkPieces choose k pieces).map Piece.part).head? = some (.inl text) ↔
      (pieces.map Piece.part).head? = some (.inl text) := by
  cases pieces with
  | nil => rfl
  | cons piece pieces => cases piece <;> simp [remarkPieces, Piece.part]

/-- They are merged if the pieces are. -/
theorem merged_remarkPieces (k : Nat) {pieces : List Piece} (h : Runs.Merged (pieces.map Piece.part)) :
    Runs.Merged ((remarkPieces choose k pieces).map Piece.part) := by
  induction pieces generalizing k with
  | nil => trivial
  | cons piece pieces ih =>
    cases piece with
    | literal text =>
      obtain ⟨hne, hhead, hrest⟩ := h
      have hhead' : ∀ next, ((remarkPieces choose k pieces).map Piece.part).head? ≠ some (.inl next) := by
        intro next hnext
        exact hhead next ((head?_remarkPieces choose k pieces next).1 hnext)
      exact ⟨hne, hhead', ih k hrest⟩
    | value policy => exact ih (k + 1) h

/-- A format with other markers is read as its pieces with other markers. -/
theorem parse_remarked {format : String} {pieces : List Piece} (h : parse format = .ok pieces) :
    parse (remarked choose format) = .ok (remarkPieces choose 0 pieces) := by
  obtain ⟨hmerged, htext⟩ := parse_eq_ok_iff.1 h
  have hremarked : (remarked choose format).toList = (remarkPieces choose 0 pieces).flatMap Piece.spelling := by
    rw [remarked, String.toList_ofList, htext, remark_flatMap_spelling]
  exact parse_eq_ok_iff.2 ⟨merged_remarkPieces choose 0 hmerged, hremarked⟩

/-! ## Rendering with other markers -/

/-- There are as many markers as before. -/
theorem markerCount_remarkPieces (k : Nat) (pieces : List Piece) :
    markerCount (remarkPieces choose k pieces) = markerCount pieces := by
  induction pieces generalizing k with
  | nil => rfl
  | cons piece pieces ih =>
    have hrest := ih k
    have hnext := ih (k + 1)
    simp only [markerCount] at hrest hnext ⊢
    cases piece with
    | literal text => simp [remarkPieces, hrest]
    | value policy => simp [remarkPieces, hnext]

section
variable {α : Type} [Loggable α] {choose} {reveal reveal' : Bool}

/-- A value is written in the same way under policies that show it, each with its reveal flag, both or neither. -/
theorem writes_eq_of_shows_iff {p q : DisplayPolicy} (h : q = .shown ∨ reveal' = true ↔ p = .shown ∨ reveal = true)
    (argument : α) : Loggable.writes argument q reveal' = Loggable.writes argument p reveal := by
  simp [Loggable.writes, h]

variable (hshows : ∀ k p, choose k p = .shown ∨ reveal' = true ↔ p = .shown ∨ reveal = true)
include hshows

/-- So are pieces, if each new marker shows its argument exactly if the old one does. -/
theorem writes_remarkPieces (k : Nat) (pieces : List Piece) (arguments : List α) :
    writes reveal' (remarkPieces choose k pieces) arguments = writes reveal pieces arguments := by
  induction pieces generalizing k arguments with
  | nil => rfl
  | cons piece pieces ih =>
    cases piece with
    | literal text => rw [remarkPieces, writes, ih, writes]
    | value policy =>
      cases arguments with
      | nil => rw [remarkPieces, writes, ih, writes]
      | cons argument arguments =>
        rw [remarkPieces, writes, ih, writes, writes_eq_of_shows_iff (hshows k policy)]

/-- And so are formats. -/
theorem render_remarked_of_shows {format : String} {pieces : List Piece} (h : parse format = .ok pieces)
    (arguments : List α) : render (remarked choose format) arguments reveal' = render format arguments reveal := by
  simp only [render, parse_remarked choose h, h, Outcome.ok_bind, markerCount_remarkPieces, writes_remarkPieces hshows]

end

/-- Markers matter only for whether they show their argument. In a format that is read well any markers can be replaced where
they stand: it is then read as the same texts with the new markers between them, and text that reads like a marker is not
touched. Markers without a policy and those of the private one, replaced by one another wherever one likes, leave the
rendering as it is, its writes or its error; and with private values revealed a format is rendered as it is, revealed or not,
with all markers public. -/
theorem render_remarked {α : Type} [Loggable α] {format : String} {pieces : List Piece} (h : parse format = .ok pieces) :
    (∀ choose, parse (remarked choose format) = .ok (remarkPieces choose 0 pieces)) ∧
    (∀ choose k literal text, remark choose k ((Piece.literal literal).spelling ++ text) =
      (Piece.literal literal).spelling ++ remark choose k text) ∧
    (∀ choose, (∀ k p, choose k p = .shown ↔ p = .shown) → ∀ (arguments : List α) (reveal : Bool),
      render (remarked choose format) arguments reveal = render format arguments reveal) ∧
    ∀ (arguments : List α) (reveal : Bool),
      render format arguments true = render (remarked (fun _ _ => .shown) format) arguments reveal := by
  refine ⟨fun choose => parse_remarked choose h, fun choose => remark_literal_append choose, ?_, ?_⟩
  · intro choose hchoose arguments reveal
    have hshows : ∀ k p, choose k p = .shown ∨ reveal = true ↔ p = .shown ∨ reveal = true :=
      fun k p => or_congr_left (hchoose k p)
    exact render_remarked_of_shows hshows h arguments
  · intro arguments reveal
    have hshows : ∀ k p, (fun (_ : Nat) (_ : DisplayPolicy) => DisplayPolicy.shown) k p = .shown ∨ reveal = true ↔
        p = .shown ∨ true = true := by simp
    exact (render_remarked_of_shows hshows h arguments).symm

/-- Exchanges no mark and the mark of the private policy. -/
def exchange : DisplayPolicy → DisplayPolicy
  | .unmarked => .withheld
  | .withheld => .unmarked
  | .shown => .shown

/-- The first of two markers is exchanged, behind a text that reads like a marker and in front of a public marker. -/
theorem render_remarked_exchanged :
    parse "100%%s %s %s %\x7bpublic\x7ds" =
        .ok [.literal "100%s ", .value .unmarked, .literal " ", .value .unmarked, .literal " ", .value .shown] ∧
      (remarked (fun k p => if k = 0 then exchange p else p) "100%%s %s %s %\x7bpublic\x7ds" =
          "100%%s %\x7bprivate\x7ds %s %\x7bpublic\x7ds" ∧
        render (remarked (fun k p => if k = 0 then exchange p else p) "100%%s %s %s %\x7bpublic\x7ds")
            [Value.wide 700, .list [.small 1, .text "a"], .text "on"] false =
          render "100%%s %s %s %\x7bpublic\x7ds" [Value.wide 700, .list [.small 1, .text "a"], .text "on"] false) ∧
      remarked (fun _ _ => .shown) "100%%s %s %s %\x7bpublic\x7ds" =
          "100%%s %\x7bpublic\x7ds %\x7bpublic\x7ds %\x7bpublic\x7ds" ∧
        render "100%%s %s %s %\x7bpublic\x7ds" [Value.wide 700, .list [.small 1, .text "a"], .text "on"] true =
          render (remarked (fun _ _ => .shown) "100%%s %s %s %\x7bpublic\x7ds")
            [Value.wide 700, .list [.small 1, .text "a"], .text "on"] false := by
  have hparse : parse "100%%s %s %s %\x7bpublic\x7ds" =
      .ok [.literal "100%s ", .value .unmarked, .literal " ", .value .unmarked, .literal " ", .value .shown] := by
    decide +kernel
  have hexchange : ∀ (k : Nat) p, (if k = 0 then exchange p else p) = .shown ↔ p = .shown := by
    intro k p
    by_cases hk : k = 0 <;> cases p <;> simp [hk, exchange]
  obtain ⟨-, -, hhidden, hshown⟩ := @render_remarked Value _ _ _ hparse
  exact ⟨hparse, ⟨by decide +kernel, hhidden _ hexchange _ false⟩, by decide +kernel, hshown _ false⟩

end PrivateLog.Format
