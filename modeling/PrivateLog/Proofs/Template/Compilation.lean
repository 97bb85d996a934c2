import PrivateLog.CompiledCall
import PrivateLog.Proofs.Format.Pieces

/-!
# Compiling and reading back

A template is compiled to a format string, and format strings are read into pieces. The two are inverse up to a normal form
of templates: neighbouring texts are one text, and empty ones are left out (`normalForm`). The reason is that a part of a
template is written as the spelling of its marks (`format_eq_flatMap_spelling`), so a format is compiled from a template
exactly if its pieces are the normal form of it.
-/

namespace PrivateLog.Template

open Format (Mark)

/-- The policy that the marker of a placeholder names. -/
def policy : Option Modifier → DisplayPolicy
  | none => .unmarked
  | some .shown => .shown

/-- The pieces that parts of a template come down to: neighbouring texts as one, empty ones left out, and a marker for each
placeholder. -/
def normalForm : List Segment → List Format.Piece
  | [] => []
  | .literal text :: segments => Format.prepend text (normalForm segments)
  | .placeholder _ modifier :: segments => .value (policy modifier) :: normalForm segments

/-- The marks that a part of a template is written as. -/
def segmentMarks : Segment → List Mark
  | .literal text => text.toList.map .character
  | .placeholder _ modifier => [.value (policy modifier)]

/-! ## The format of a template -/

/-- A part of a template is written as the spelling of its marks. -/
theorem format_eq_flatMap_spelling (segment : Segment) :
    segment.format = (segmentMarks segment).flatMap Mark.spelling := by
  cases segment with
  | literal text => simp [Segment.format, segmentMarks, escapePercent, List.flatMap_map, Mark.spelling]
  | placeholder expression modifier =>
    cases modifier with
    | none => rfl
    | some modifier => cases modifier; rfl

/-- The normal form has the marks of the parts. -/
theorem flatMap_marks_normalForm (segments : List Segment) :
    (normalForm segments).flatMap Format.Piece.marks = segments.flatMap segmentMarks := by
  induction segments with
  | nil => rfl
  | cons segment segments ih =>
    cases segment with
    | literal text => rw [normalForm, Format.flatMap_marks_prepend, ih]; rfl
    | placeholder expression modifier => rw [normalForm, List.flatMap_cons, ih]; rfl

/-- The normal form is merged. -/
theorem merged_normalForm (segments : List Segment) : Runs.Merged ((normalForm segments).map Format.Piece.part) := by
  induction segments with
  | nil => trivial
  | cons segment segments ih =>
    cases segment with
    | literal text => exact Format.merged_prepend text ih
    | placeholder expression modifier => exact ih

/-- The parts of a template are written as the spelling of their marks. -/
theorem flatMap_format (segments : List Segment) :
    segments.flatMap Segment.format = (segments.flatMap segmentMarks).flatMap Mark.spelling := by
  rw [List.flatMap_assoc]
  exact congrArg (List.flatMap · segments) (funext format_eq_flatMap_spelling)

/-- A compiled format is read as the normal form of its template. -/
theorem parse_format_compile (template : Template) (severity : Severity) :
    Format.parse (template.compile severity).format = .ok (normalForm template.segments) := by
  rw [Format.parse_eq_ok_iff]
  refine ⟨merged_normalForm template.segments, ?_⟩
  calc
    (template.compile severity).format.toList = template.segments.flatMap Segment.format := String.toList_ofList
    _ = (template.segments.flatMap segmentMarks).flatMap Mark.spelling := flatMap_format template.segments
    _ = (normalForm template.segments).flatMap Format.Piece.spelling := by
      rw [← flatMap_marks_normalForm, List.flatMap_assoc]
      rfl

/-- The markers of the normal form are those of the placeholders, in order. -/
theorem policies_normalForm (template : Template) :
    Format.policies (normalForm template.segments) = template.placeholders.map (fun entry => policy entry.2) := by
  obtain ⟨segments⟩ := template
  simp only [placeholders]
  induction segments with
  | nil => rfl
  | cons segment segments ih =>
    cases segment with
    | literal text => rw [normalForm, Format.policies_prepend, ih]; rfl
    | placeholder expression modifier => rw [normalForm, Format.policies, ih]; rfl

/-- There is one marker for each placeholder. -/
theorem markerCount_normalForm (template : Template) :
    Format.markerCount (normalForm template.segments) = template.placeholderCount := by
  rw [← Format.length_policies, policies_normalForm, List.length_map]
  rfl

/-! ## Templates with a given format -/

/-- The modifier of a placeholder whose marker names a policy. -/
def modifier? : DisplayPolicy → Option Modifier
  | .shown => some .shown
  | _ => none

/-- The parts of a template that some pieces stand for, the expressions filling the placeholders in order. -/
def rebuild : List Format.Piece → List Expression → List Segment
  | [], _ => []
  | .literal text :: pieces, expressions => .literal text :: rebuild pieces expressions
  | .value policy :: pieces, expression :: expressions =>
    .placeholder expression (modifier? policy) :: rebuild pieces expressions
  | .value _ :: pieces, [] => rebuild pieces []

/-- A policy other than the private one is that of a modifier. -/
theorem policy_modifier? {policy : DisplayPolicy} (h : policy ≠ .withheld) :
    Template.policy (modifier? policy) = policy := by
  cases policy with
  | unmarked => rfl
  | shown => rfl
  | withheld => exact absurd rfl h

/-- What is rebuilt from pieces has their marks and holds the expressions. -/
theorem rebuild_spec {pieces : List Format.Piece} {expressions : List Expression} (hw : .value .withheld ∉ pieces)
    (hl : expressions.length = Format.markerCount pieces) :
    (rebuild pieces expressions).flatMap segmentMarks = pieces.flatMap Format.Piece.marks ∧
      (Template.mk (rebuild pieces expressions)).placeholders.map (·.1) = expressions := by
  simp only [placeholders]
  induction pieces generalizing expressions with
  | nil =>
    have he : expressions = [] := List.length_eq_zero_iff.1 hl
    subst he
    exact ⟨rfl, rfl⟩
  | cons piece pieces ih =>
    rw [List.mem_cons, not_or] at hw
    cases piece with
    | literal text =>
      obtain ⟨hmarks, hexpressions⟩ := ih hw.2 (by simpa [Format.markerCount] using hl)
      exact ⟨congrArg _ hmarks, hexpressions⟩
    | value policy =>
      cases expressions with
      | nil => simp [Format.markerCount] at hl
      | cons expression expressions =>
        obtain ⟨hmarks, hexpressions⟩ := ih hw.2 (by simpa [Format.markerCount] using hl)
        have hp : policy ≠ .withheld := fun h => hw.1 (h ▸ rfl)
        refine ⟨?_, congrArg _ hexpressions⟩
        rw [rebuild, List.flatMap_cons, segmentMarks, policy_modifier? hp, hmarks]
        rfl

/-- A template that is rebuilt from the pieces of a format is compiled to this format. -/
theorem format_compile_rebuild {format : String} {pieces : List Format.Piece} {expressions : List Expression}
    (h : Format.parse format = .ok pieces) (hw : .value .withheld ∉ pieces)
    (hl : expressions.length = Format.markerCount pieces) (severity : Severity) :
    ((Template.mk (rebuild pieces expressions)).compile severity).format = format := by
  obtain ⟨-, htext⟩ := Format.parse_eq_ok_iff.1 h
  apply String.ext
  calc
    _ = (rebuild pieces expressions).flatMap Segment.format := String.toList_ofList
    _ = ((rebuild pieces expressions).flatMap segmentMarks).flatMap Mark.spelling := flatMap_format _
    _ = pieces.flatMap Format.Piece.spelling := by
      rw [(rebuild_spec hw hl).1, List.flatMap_assoc]
      rfl
    _ = format.toList := htext.symm

/-- No placeholder asks for the private policy by name. -/
theorem withheld_not_mem_normalForm (template : Template) : .value .withheld ∉ normalForm template.segments := by
  intro hmem
  have hpolicies := Format.mem_policies_iff.2 hmem
  rw [policies_normalForm, List.mem_map] at hpolicies
  obtain ⟨⟨expression, modifier⟩, -, hm⟩ := hpolicies
  cases modifier with
  | none => cases hm
  | some modifier => cases modifier; cases hm

/-- Compiling and reading formats are inverse to one another. A compiled format is read as the normal form of its template,
and its arguments are the expressions of the placeholders in the order of the markers; a format without a marker of the
private policy is compiled again from its pieces, whichever expressions fill the placeholders. So these formats are the
compiled ones, and templates with one format agree in their texts and markers. -/
theorem compile_parse_inverse :
    (∀ (template : Template) (severity : Severity),
      Format.parse (template.compile severity).format = .ok (normalForm template.segments) ∧
        (template.compile severity).arguments = template.placeholders.map (·.1) ∧
        Format.policies (normalForm template.segments) = template.placeholders.map (fun entry => policy entry.2)) ∧
    (∀ (format : String) (pieces : List Format.Piece) (expressions : List Expression) (severity : Severity),
      Format.parse format = .ok pieces → .value .withheld ∉ pieces →
        expressions.length = Format.markerCount pieces →
        ((Template.mk (rebuild pieces expressions)).compile severity).format = format ∧
          ((Template.mk (rebuild pieces expressions)).compile severity).arguments = expressions) ∧
    (∀ (format : String) (severity : Severity),
      (∃ pieces, Format.parse format = .ok pieces ∧ .value .withheld ∉ pieces) ↔
        ∃ template : Template, (template.compile severity).format = format) ∧
    (∀ (a b : Template) (s t : Severity), (a.compile s).format = (b.compile t).format →
      normalForm a.segments = normalForm b.segments) := by
  refine ⟨fun template severity => ?_, fun format pieces expressions severity h hw hl => ?_,
    fun format severity => ⟨?_, ?_⟩, fun a b s t h => ?_⟩
  · exact ⟨parse_format_compile template severity, template.compile_arguments severity, policies_normalForm template⟩
  · exact ⟨format_compile_rebuild h hw hl severity, (rebuild_spec hw hl).2⟩
  · rintro ⟨pieces, h, hw⟩
    -- Any expressions will do, so each placeholder takes the same one.
    have hl : (List.replicate (Format.markerCount pieces) (Expression.binding "x" ⟨0, 0⟩)).length =
        Format.markerCount pieces := List.length_replicate
    exact ⟨_, format_compile_rebuild h hw hl severity⟩
  · rintro ⟨template, rfl⟩
    exact ⟨_, parse_format_compile template severity, withheld_not_mem_normalForm template⟩
  · have ha := parse_format_compile a s
    rw [h, parse_format_compile b t] at ha
    exact (Except.ok.inj ha).symm

/-- A percent sign before an `s` in a text, and two markers behind it: the format comes back from its pieces, and cutting
the text in two makes no difference. -/
theorem compile_parse_inverse_percent :
    (Format.parse "%%s%s%\x7bpublic\x7ds" = .ok [.literal "%s", .value .unmarked, .value .shown] ∧
      ((Template.mk (rebuild [.literal "%s", .value .unmarked, .value .shown]
        [.binding "x" ⟨0, 1⟩, .binding "y" ⟨2, 3⟩])).compile .info).format = "%%s%s%\x7bpublic\x7ds") ∧
    ((Template.mk [.literal "%", .literal "s"]).compile .info).format =
      ((Template.mk [.literal "%s"]).compile .debug).format ∧
    normalForm [.literal "%", .literal "s"] = normalForm [.literal "%s"] := by
  have hparse : Format.parse "%%s%s%\x7bpublic\x7ds" = .ok [.literal "%s", .value .unmarked, .value .shown] := rfl
  have hformat : ((Template.mk [.literal "%", .literal "s"]).compile .info).format =
      ((Template.mk [.literal "%s"]).compile .debug).format := rfl
  obtain ⟨-, hrebuild, -, hsame⟩ := compile_parse_inverse
  exact ⟨⟨hparse, (hrebuild _ _ _ .info hparse (by decide) rfl).1⟩, hformat, hsame _ _ _ _ hformat⟩

end PrivateLog.Template
