import PrivateLog.Decimal.Layout
import PrivateLog.Text.Quoted

/-!
# Values in messages

The values that a message may show. Integers come in two kinds, small ones and wide ones, because only the wide ones are
private; the three wrappers change how much of their content is shown and in which form. Each value has a plain form and
a debugging form.
-/

namespace PrivateLog

/-- A value that a message may show. -/
inductive Value where
  | small (n : Int)
  | wide (n : Int)
  | bool (b : Bool)
  | char (c : Char)
  | float (format : Decimal.BinaryFormat) (bits : Nat)
  | text (s : String)
  | reference (value : Value)
  | present (value : Value)
  | absent
  | list (values : List Value)
  | declassified (value : Value)
  | debugged (value : Value)
  | displayed (value : Value)
  deriving Repr, Inhabited

namespace Value

/-- Texts with a comma between them, in square brackets. -/
def bracketed (parts : List (List Char)) : List Char :=
  '[' :: ((parts.intersperse [',', ' ']).flatten ++ [']'])

mutual

/-- The debugging form of a value. Wrappers have none of their own and show that of their content. -/
def describe : Value → List Char
  | .small n => (toString n).toList
  | .wide n => (toString n).toList
  | .bool b => (toString b).toList
  | .char c => Text.quote '\'' [c]
  | .float format bits => Decimal.Layout.debugging.float format bits
  | .text s => Text.quote '"' s.toList
  | .reference value => describe value
  | .present value => "Some(".toList ++ describe value ++ [')']
  | .absent => "None".toList
  | .list values => bracketed (describeAll values)
  | .declassified value => describe value
  | .debugged value => describe value
  | .displayed value => describe value

/-- The debugging forms of some values. -/
def describeAll : List Value → List (List Char)
  | [] => []
  | value :: values => describe value :: describeAll values

end

/-- The plain form of a value. Only numbers, truth values, characters, texts and references to them have one; any other
value shows its debugging form. -/
def display : Value → List Char
  | .small n => (toString n).toList
  | .wide n => (toString n).toList
  | .bool b => (toString b).toList
  | .char c => [c]
  | .float format bits => Decimal.Layout.plain.float format bits
  | .text s => s.toList
  | .reference value => display value
  | value => describe value

/-- The debugging forms of some values are their debugging forms one by one. -/
theorem describeAll_eq_map (values : List Value) : describeAll values = values.map describe := by
  induction values with
  | nil => rfl
  | cons value values ih => simp [describeAll, ih]

end Value

end PrivateLog
