import PrivateLog.Proofs.Invocation.Parts
import PrivateLog.Proofs.Template.Faults
import PrivateLog.Proofs.Token.Naming

/-!
# What a diagnostic points at

A template that is rejected is rejected for one fault (`Template.Rejected`), and the diagnostic points at the text that the
fault is about. In a plain literal a part of the value stands in the source as it is, one byte further on for the quote
(`marks_iff`); in any other literal the diagnostic points at the literal. `template_eq_error_iff` puts these together: which
diagnostic it is, that names are written where they are said to stand, and that no diagnostic points at nothing.
-/

namespace PrivateLog

open Text

namespace Invocation

variable {invocation : Invocation}

/-- The span is where the source has the part of the value that stands behind `front`: in a plain literal the place of that
part, in any other the place of the literal. -/
def Marks (invocation : Invocation) (source front part : List Char) (span : Span) : Prop :=
  ∃ before, invocation.literal.span.Covers source before invocation.literal.value.toList ∧
    if invocation.isPlain then span.Covers source (before ++ '"' :: front) part else span = invocation.literal.span

/-- A plain literal is its value between quotes. -/
theorem isPlain_iff : invocation.isPlain = true ↔
    invocation.literal.value.toList = '"' :: (invocation.value.toList ++ ['"']) :=
  beq_iff_eq

/-- A part of the value is marked exactly by the span that is reported for it. -/
theorem marks_iff {source before front part : List Char}
    (hliteral : invocation.literal.span.Covers source before invocation.literal.value.toList)
    (hpart : front ++ part <+: invocation.value.toList) {span : Span} :
    invocation.Marks source front part span ↔
      span = invocation.place ⟨byteLength front, byteLength front + byteLength part⟩ := by
  have hquote : '"'.utf8Size = 1 := by decide
  cases hplain : invocation.isPlain with
  | false =>
    simp only [Marks, place, hplain, Bool.false_eq_true, if_false]
    exact ⟨fun ⟨_, _, hspan⟩ => hspan, fun hspan => ⟨before, hliteral, hspan⟩⟩
  | true =>
    simp only [Marks, place, hplain, if_true]
    constructor
    · rintro ⟨before, ⟨-, hstart⟩, -, rfl⟩
      simp only [hstart, byteLength_append, byteLength, hquote, Nat.add_assoc]
    · rintro rfl
      obtain ⟨behind, hbehind⟩ := hpart
      have htext : invocation.literal.value.toList = ('"' :: front) ++ (part ++ (behind ++ ['"'])) := by
        rw [isPlain_iff.1 hplain, ← hbehind]
        simp
      refine ⟨before, hliteral, ?_⟩
      rw [htext] at hliteral
      have hcovers := hliteral.inside
      simpa only [byteLength, hquote, Nat.add_assoc] using hcovers

/-- The literal of a template is not empty. -/
theorem literal_ne_nil {literal value : String} (h : StringLiteral.value? literal = some value) : literal.toList ≠ [] := by
  intro hnil
  rw [StringLiteral.value?, hnil] at h
  cases h

/-- What is marked is not empty. -/
theorem Marks.start_lt_stop {source front part : List Char} {span : Span} (h : invocation.Marks source front part span)
    (hliteral : invocation.literal.value.toList ≠ []) (hpart : part ≠ []) : span.start < span.stop := by
  obtain ⟨before, hcovers, hspan⟩ := h
  split at hspan
  · exact hspan.start_lt_stop hpart
  · rw [hspan]
    exact hcovers.start_lt_stop hliteral

/-- A call whose template is rejected is rejected for one fault, and the diagnostic points at what the fault is about: the
name of an argument where it is written, or the part of the value that is at fault. No diagnostic points at nothing. -/
theorem template_eq_error_iff {source : String} (hs : ofSource source = .ok invocation) :
    (∀ error, invocation.template = .error error ↔ ∃ diagnostic, error = .diagnostic diagnostic ∧
      Template.Rejected invocation.named invocation.value.toList (invocation.Marks source.toList) diagnostic) ∧
      (∀ argument ∈ invocation.named, ∃ before, argument.place.Covers source.toList before argument.name.toList) ∧
      ∀ diagnostic, Template.Rejected invocation.named invocation.value.toList (invocation.Marks source.toList) diagnostic →
        diagnostic.span.start < diagnostic.span.stop := by
  obtain ⟨tokens, hlocate, hparts⟩ := exists_tokens_of_ofSource hs
  have hstands := Token.standsIn_of_locate? hlocate
  obtain ⟨before, hliteral⟩ := (hstands _ hparts.literal).covers_of_literal
  have hnames : ∀ argument ∈ invocation.named, ∃ before,
      argument.place.Covers source.toList before argument.name.toList :=
    fun argument hm => (hstands _ (hparts.names argument hm)).covers_of_ident
  have hne : ∀ argument ∈ invocation.named, argument.name.toList ≠ [] := by
    intro argument hm
    obtain ⟨text, rest, hname⟩ := (hstands _ (hparts.names argument hm)).exists_splitIdentifier
    exact Lexeme.ne_nil_of_splitIdentifier hname
  have hplace : ∀ argument ∈ invocation.named, argument.place.start < argument.place.stop := by
    intro argument hm
    obtain ⟨before, hcovers⟩ := hnames argument hm
    exact hcovers.start_lt_stop (hne argument hm)
  refine ⟨fun error => ?_, hnames, fun diagnostic h => ?_⟩
  · have hempty : ∀ argument ∈ invocation.named, argument.name ≠ "" := by
      intro argument hm hname
      exact hne argument hm (by rw [hname]; rfl)
    rw [template_eq_error_iff_read]
    refine exists_congr fun diagnostic => and_congr_right fun _ => ?_
    rw [Template.read_eq_error_iff hempty]
    constructor
    · intro h
      exact h.imp fun front part hpart span => (marks_iff hliteral hpart).2
    · intro h
      exact h.imp fun front part hpart span => (marks_iff hliteral hpart).1
  · cases h with
    | repeated hfirst =>
      obtain ⟨before, behind, hnamed, -⟩ := hfirst
      exact hplace _ (hnamed ▸ List.mem_append_cons_self)
    | fault hd hfault hspan => exact hspan.start_lt_stop (literal_ne_nil hparts.value) hfault.part_spec.2
    | unused hd hitems hall hunused =>
      obtain ⟨before, behind, hnamed, -⟩ := hunused
      exact hplace _ (hnamed ▸ List.mem_append_cons_self)

/-- A call is rejected if its template is. -/
theorem exists_of_error (source : String) (error : SourceError)
    (h : (fun invocation => (fun _ => ()) <$> invocation.template) <$> ofSource source = .ok (.error error)) :
    ∃ invocation, ofSource source = .ok invocation ∧ invocation.template = .error error := by
  obtain ⟨invocation, hs, htemplate⟩ := Outcome.map_eq_ok_iff.1 h
  exact ⟨invocation, hs, Outcome.map_eq_error_iff.1 htemplate⟩

/-- A foreign label with blanks around it, in front of a brace that is unmatched and an argument that is not used. -/
theorem template_eq_error_iff_label :
    ∃ invocation, ofSource "\"\x7bx\x7d \x7b nope : y\x7d \x7d\", x = 1, z = 2" = .ok invocation ∧
      invocation.template = .error (.diagnostic ⟨.unknownModifier "nope", ⟨7, 11⟩⟩) ∧
      Template.Rejected invocation.named invocation.value.toList
        (invocation.Marks "\"\x7bx\x7d \x7b nope : y\x7d \x7d\", x = 1, z = 2".toList)
        ⟨.unknownModifier "nope", ⟨7, 11⟩⟩ := by
  obtain ⟨invocation, hs, htemplate⟩ :=
    exists_of_error "\"\x7bx\x7d \x7b nope : y\x7d \x7d\", x = 1, z = 2"
      (.diagnostic ⟨.unknownModifier "nope", ⟨7, 11⟩⟩) (by decide +kernel)
  obtain ⟨diagnostic, heq, hrejected⟩ := ((template_eq_error_iff hs).1 _).1 htemplate
  cases heq
  exact ⟨invocation, hs, htemplate, hrejected⟩

end Invocation

end PrivateLog
