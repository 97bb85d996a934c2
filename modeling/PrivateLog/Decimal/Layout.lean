import PrivateLog.Decimal.Shortest

/-!
# Writing decimals

The digits of a decimal are laid out around the point. A layout says up to which sizes of numbers the digits are written
at their positions and when a power of ten is written instead, and whether a whole number keeps a point and a zero.
-/

namespace PrivateLog.Decimal

/-- How numbers are written: with the exponent of the first digit inside `positional` all digits stand at their
positions, outside a power of ten follows; with `point`, whole numbers written at their positions end in `.0`. -/
structure Layout where
  positional : Int → Bool
  point : Bool

/-- The plain form: digits at their positions whatever the size. -/
def Layout.plain : Layout := ⟨fun _ => true, false⟩

/-- The debugging form: a power of ten below a ten-thousandth and from ten to the sixteenth on, and a point in whole
numbers. -/
def Layout.debugging : Layout := ⟨fun exponent => -4 ≤ exponent && exponent < 16, true⟩

namespace Layout

/-- A positive decimal. -/
def decimal (layout : Layout) (decimal : Decimal) : List Char :=
  let digits := Nat.toDigits 10 decimal.digits
  let point := digits.length + decimal.exponent
  if layout.positional (point - 1) then
    if point ≤ 0 then ['0', '.'] ++ List.replicate (-point).toNat '0' ++ digits
    else if digits.length ≤ point then
      digits ++ List.replicate (point - digits.length).toNat '0' ++ (if layout.point then ['.', '0'] else [])
    else digits.take point.toNat ++ '.' :: digits.drop point.toNat
  else digits.take 1 ++ (if digits.length = 1 then [] else '.' :: digits.drop 1) ++ 'e' :: (toString (point - 1)).toList

/-- A floating point number by its bits. What is no number has no sign. -/
def float (layout : Layout) (format : BinaryFormat) (bits : Nat) : List Char :=
  let sign := if format.isNegative bits then ['-'] else []
  match format.magnitude bits with
  | .undefined => "NaN".toList
  | .infinite => sign ++ "inf".toList
  | .finite 0 _ _ => sign ++ (if layout.point then "0.0" else "0").toList
  | .finite significand exponent narrow => sign ++ layout.decimal (shortest significand exponent narrow)

end Layout

end PrivateLog.Decimal
