/-!
# Binary floating point numbers

A floating point number is given by its bits. Decoding yields its sign and its kind; a finite number has the magnitude
`significand · 2 ^ exponent`. `narrow` marks the numbers at which the exponent steps up: the next smaller number is only
half as far away as the next larger one.
-/

namespace PrivateLog.Decimal

/-- A binary format: the number of bits for the fraction and for the exponent, the sign bit in front of both. -/
structure BinaryFormat where
  fractionBits : Nat
  exponentBits : Nat
  deriving DecidableEq, Repr

/-- The format of 32 bits. -/
def single : BinaryFormat := ⟨23, 8⟩

/-- The format of 64 bits. -/
def double : BinaryFormat := ⟨52, 11⟩

/-- What a number is apart from its sign. -/
inductive Magnitude where
  | finite (significand : Nat) (exponent : Int) (narrow : Bool)
  | infinite
  | undefined
  deriving DecidableEq, Repr

namespace BinaryFormat

/-- Whether the bits have the sign of negative numbers. -/
def isNegative (format : BinaryFormat) (bits : Nat) : Bool :=
  bits.testBit (format.fractionBits + format.exponentBits)

/-- The magnitude that the bits stand for. The least exponent belongs to the subnormal numbers, the greatest to infinity
and to what is no number. -/
def magnitude (format : BinaryFormat) (bits : Nat) : Magnitude :=
  let fraction := bits % Nat.pow 2 format.fractionBits
  let field := bits / Nat.pow 2 format.fractionBits % Nat.pow 2 format.exponentBits
  let bias : Int := Nat.pow 2 (format.exponentBits - 1) - 1
  if field + 1 = Nat.pow 2 format.exponentBits then (if fraction = 0 then .infinite else .undefined)
  else if field = 0 then .finite fraction (1 - bias - format.fractionBits) false
  else .finite (fraction + Nat.pow 2 format.fractionBits) (field - bias - format.fractionBits) (fraction = 0)

end BinaryFormat

/-- Zero has no significand. -/
theorem magnitude_zero (format : BinaryFormat) (h : 1 < format.exponentBits) :
    ∃ exponent, format.magnitude 0 = .finite 0 exponent false := by
  have h2 : 1 ≠ 2 ^ format.exponentBits := by
    intro he
    have := Nat.one_lt_two_pow (n := format.exponentBits) (by omega)
    omega
  exact ⟨_, by simp [BinaryFormat.magnitude, h2]; rfl⟩

end PrivateLog.Decimal
