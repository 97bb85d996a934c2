import PrivateLog.Value.Basic

/-!
# Redaction

A value is written in full or redacted. Both are sequences of single writes: the brackets and commas of a list, the name
around a present value, and one write for each leaf. Redacting replaces the leaves of a private kind by a fixed text and
leaves everything else as it is, except that a declassified value is always written in full. Messages take anything that
has these two forms.
-/

namespace PrivateLog

/-- Written in the place of a private value. -/
def redactedText : String := "<private>"

/-- How a placeholder asks its value to be shown: without a mark, as public, or as private. -/
inductive DisplayPolicy where
  | unmarked
  | shown
  | withheld
  deriving DecidableEq, Repr

namespace DisplayPolicy

/-- The policy of a placeholder that names none. -/
def standard : DisplayPolicy := .unmarked

/-- The word that marks a policy in a format string. -/
def qualifier? : DisplayPolicy → Option String
  | .unmarked => none
  | .shown => some "public"
  | .withheld => some "private"

/-- The policy that a word marks. -/
def ofQualifier? (qualifier : String) : Option DisplayPolicy :=
  if qualifier = "public" then some .shown
  else if qualifier = "private" then some .withheld
  else none

/-- The name of a policy. -/
def name : DisplayPolicy → String
  | .unmarked => "Default"
  | .shown => "Public"
  | .withheld => "Private"

/-- A policy is the one its word marks. -/
theorem ofQualifier?_eq_some_iff {qualifier : String} {policy : DisplayPolicy} :
    ofQualifier? qualifier = some policy ↔ policy.qualifier? = some qualifier := by
  constructor
  · intro h
    unfold ofQualifier? at h
    split at h
    · cases h
      simp_all [qualifier?]
    · split at h
      · cases h
        simp_all [qualifier?]
      · cases h
  · intro h
    cases policy with
    | unmarked => cases h
    | shown => cases h; rfl
    | withheld => cases h; rfl

end DisplayPolicy

namespace Value

/-- The writes of a list, from those of its elements. -/
def listWrites (parts : List (List String)) : List String :=
  "[" :: ((parts.intersperse [", "]).flatten ++ ["]"])

/-- The writes of a present value, from those of its content. -/
def presentWrites (writes : List String) : List String :=
  "Some(" :: (writes ++ [")"])

mutual

/-- The writes of a value in full. -/
def full : Value → List String
  | .reference value => full value
  | .present value => presentWrites (full value)
  | .absent => ["None"]
  | .list values => listWrites (fullAll values)
  | .declassified value => full value
  | .debugged value => [String.ofList (describe value)]
  | .displayed value => [String.ofList (display value)]
  | .small n => [String.ofList (display (.small n))]
  | .wide n => [String.ofList (display (.wide n))]
  | .bool b => [String.ofList (display (.bool b))]
  | .char c => [String.ofList (display (.char c))]
  | .float format bits => [String.ofList (display (.float format bits))]
  | .text s => [s]

/-- The writes of some values in full. -/
def fullAll : List Value → List (List String)
  | [] => []
  | value :: values => full value :: fullAll values

end

mutual

/-- The writes of a value with its private parts withheld. -/
def redacted : Value → List String
  | .small n => full (.small n)
  | .bool b => full (.bool b)
  | .char c => full (.char c)
  | .reference value => redacted value
  | .present value => presentWrites (redacted value)
  | .absent => ["None"]
  | .list values => listWrites (redactedAll values)
  | .declassified value => full value
  | .wide _ | .float _ _ | .text _ | .debugged _ | .displayed _ => [redactedText]

/-- The writes of some values with their private parts withheld. -/
def redactedAll : List Value → List (List String)
  | [] => []
  | value :: values => redacted value :: redactedAll values

end

end Value

/-- What a message can show, each form as a sequence of single writes: in full, and with the private parts withheld. -/
class Loggable (α : Type) where
  full : α → List String
  redacted : α → List String

instance : Loggable Value where
  full := Value.full
  redacted := Value.redacted

namespace Loggable

variable {α : Type} [Loggable α]

/-- The writes under a policy; `reveal` lifts every redaction. -/
def writes (value : α) (policy : DisplayPolicy) (reveal : Bool) : List String :=
  if policy = .shown || reveal then full value else redacted value

/-- What is marked as public is written in full. -/
theorem writes_shown (value : α) (reveal : Bool) : writes value .shown reveal = full value := by
  simp [writes]

/-- Nothing is withheld when private values are revealed. -/
theorem writes_reveal (value : α) (policy : DisplayPolicy) : writes value policy true = full value := by
  simp [writes]

/-- Without a mark a value is treated as one marked as private. -/
theorem writes_unmarked (value : α) (reveal : Bool) : writes value .unmarked reveal = writes value .withheld reveal := by
  simp [writes]

end Loggable

/-- The writes of a value under a policy. -/
def Value.writes (value : Value) (policy : DisplayPolicy) (reveal : Bool) : List String :=
  Loggable.writes value policy reveal

end PrivateLog
