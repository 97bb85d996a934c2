import PrivateLog.Proofs.Template.Compilation

/-!
# The message of a template

A template with one value for each placeholder stands for a message: its texts as they are and its values in between, each
in full or redacted. `renderText_compile` says that the renderer makes exactly this message of the compiled format, for
anything that can be shown in a message. So no text of a template is ever taken for a marker, not even when it looks like one
or becomes one together with its neighbour, and no format that is compiled is ever at fault.
-/

namespace PrivateLog.Template

variable {α : Type} [Loggable α]

/-- The text of a placeholder's value: in full if the placeholder is public or private values are revealed, else redacted. -/
def valueText (reveal : Bool) (modifier : Option Modifier) (value : α) : String :=
  String.join (if modifier = some .shown ∨ reveal = true then Loggable.full value else Loggable.redacted value)

/-- The message that parts of a template stand for, the values taking the places of the placeholders in order. -/
def message (reveal : Bool) : List Segment → List α → String
  | [], _ => ""
  | .literal text :: segments, values => text ++ message reveal segments values
  | .placeholder _ modifier :: segments, value :: values =>
    valueText reveal modifier value ++ message reveal segments values
  | .placeholder _ _ :: segments, [] => message reveal segments []

/-- What a placeholder's policy makes of a value is the text of the value. -/
theorem join_writes_policy (reveal : Bool) (modifier : Option Modifier) (value : α) :
    String.join (Loggable.writes value (policy modifier) reveal) = valueText reveal modifier value := by
  cases modifier with
  | none => cases reveal <;> rfl
  | some modifier => cases modifier; rfl

/-- A text in front of pieces is written in front. -/
theorem join_writes_prepend (reveal : Bool) (text : String) (pieces : List Format.Piece) (values : List α) :
    String.join (Format.writes reveal (Format.prepend text pieces) values) =
      text ++ String.join (Format.writes reveal pieces values) := by
  unfold Format.prepend
  split
  · simp [Format.writes, String.append_assoc]
  · split
    · rename_i h
      simp [h]
    · simp [Format.writes]

/-- The normal form of a template is written as its message. -/
theorem join_writes_normalForm (reveal : Bool) (segments : List Segment) (values : List α) :
    String.join (Format.writes reveal (normalForm segments) values) = message reveal segments values := by
  induction segments generalizing values with
  | nil => rfl
  | cons segment segments ih =>
    cases segment with
    | literal text => rw [normalForm, join_writes_prepend, ih, message]
    | placeholder expression modifier =>
      cases values with
      | nil => rw [normalForm, Format.writes, ih, message]
      | cons value values => rw [normalForm, Format.writes, String.join_append, join_writes_policy, ih, message]

/-- A compiled format has no fault, and with one value for each placeholder it is rendered as the message of its
template. -/
theorem renderText_compile (template : Template) (severity : Severity) (values : List α) (reveal : Bool) :
    (∃ pieces, Format.parse (template.compile severity).format = .ok pieces) ∧
      (values.length = template.placeholderCount →
        Format.renderText (template.compile severity).format values reveal =
          .ok (message reveal template.segments values)) := by
  have hparse := parse_format_compile template severity
  refine ⟨⟨_, hparse⟩, fun hl => ?_⟩
  have hcount : Format.markerCount (normalForm template.segments) = values.length := by
    rw [markerCount_normalForm, hl]
  rw [Format.renderText, Format.render, hparse, Outcome.ok_bind, if_pos hcount, Outcome.pure_eq_ok, Except.map_ok,
    join_writes_normalForm]

/-- Texts that make up a marker together, a text in braces, and two values of which one is public. -/
theorem renderText_compile_percent :
    [Value.text "alice", Value.wide 3].length =
        (Template.mk [.literal "%", .literal "s \x7bpublic\x7d ", .placeholder (.binding "x" ⟨0, 1⟩) (some .shown),
          .literal "", .placeholder (.binding "y" ⟨2, 3⟩) none]).placeholderCount ∧
      Format.renderText ((Template.mk [.literal "%", .literal "s \x7bpublic\x7d ",
          .placeholder (.binding "x" ⟨0, 1⟩) (some .shown), .literal "",
          .placeholder (.binding "y" ⟨2, 3⟩) none]).compile .info).format [Value.text "alice", Value.wide 3] false =
        .ok "%s \x7bpublic\x7d alice<private>" := by
  refine ⟨rfl, ?_⟩
  exact (renderText_compile _ .info [Value.text "alice", Value.wide 3] false).2 rfl

end PrivateLog.Template
