import PrivateLog.Expression.Basic
import PrivateLog.Template.Label

/-!
# Templates

A template is literal text with placeholders in between. A placeholder holds an expression and, where its label asks for
one, a modifier.
-/

namespace PrivateLog

/-- A part of a template. -/
inductive Segment where
  | literal (text : String)
  | placeholder (expression : Expression) (modifier : Option Template.Modifier)
  deriving Repr

/-- The parts of a template, in order. -/
structure Template where
  segments : List Segment
  deriving Repr

namespace Template

/-- The template without parts. -/
def empty : Template := ⟨[]⟩

/-- The template with one more part at its end. -/
def push (template : Template) (segment : Segment) : Template :=
  ⟨template.segments ++ [segment]⟩

/-- The placeholders, in order. -/
def placeholders (template : Template) : List (Expression × Option Modifier) :=
  template.segments.filterMap fun
    | .literal _ => none
    | .placeholder expression modifier => some (expression, modifier)

/-- The number of placeholders. -/
def placeholderCount (template : Template) : Nat :=
  template.placeholders.length

/-- Parts are the same when their texts and modifiers are. -/
def sameSegment : Segment → Segment → Bool
  | .literal a, .literal b => a == b
  | .placeholder a m, .placeholder b n => a.same b && m == n
  | _, _ => false

/-- Templates are the same when their parts are, one by one. -/
def same (a b : Template) : Bool :=
  a.segments.length == b.segments.length && (a.segments.zip b.segments).all fun pair => sameSegment pair.1 pair.2

/-- Pushing parts one after another gives the template of these parts. -/
theorem foldl_push (template : Template) (segments : List Segment) :
    segments.foldl push template = ⟨template.segments ++ segments⟩ := by
  induction segments generalizing template with
  | nil => simp
  | cons segment segments ih => simp [ih, push]

end Template

end PrivateLog
