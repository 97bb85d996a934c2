import PrivateLog.Decimal.Binary

/-!
# The shortest decimal that reads back

Every real number nearer to a floating point number than to its neighbours is read as that number, and so are the two
limits halfway to the neighbours if the significand is even. Among the decimals in this interval the one with the fewest
digits is chosen; of two with equally many, the nearer, and in the middle the larger. All of it is exact arithmetic on
natural numbers: the number, the limits and the decimals are taken in units of a common denominator.
-/

namespace PrivateLog

/-- A decimal: `digits · 10 ^ exponent`. -/
structure Decimal where
  digits : Nat
  exponent : Int
  deriving DecidableEq, Repr

namespace Decimal

/-- The reals that read back as a positive number: the number and how far the interval reaches down and up, all over
`denominator`, and whether the limits belong to it. -/
structure Interval where
  value : Nat
  below : Nat
  above : Nat
  denominator : Nat
  closed : Bool
  deriving DecidableEq, Repr

/-- The interval of `significand · 2 ^ exponent`. -/
def Interval.ofBinary (significand : Nat) (exponent : Int) (narrow : Bool) : Interval :=
  let scale := Nat.pow 2 (exponent - 2).toNat
  { value := 4 * significand * scale
    below := (if narrow then 1 else 2) * scale
    above := 2 * scale
    denominator := Nat.pow 2 (2 - exponent).toNat
    closed := significand % 2 = 0 }

namespace Interval

/-- The interval in units of `10 ^ exponent`. -/
def scaled (interval : Interval) (exponent : Int) : Interval :=
  let up := Nat.pow 10 (-exponent).toNat
  { interval with
    value := interval.value * up
    below := interval.below * up
    above := interval.above * up
    denominator := interval.denominator * Nat.pow 10 exponent.toNat }

/-- Whether a whole number of units belongs to the interval. -/
def contains (interval : Interval) (n : Nat) : Bool :=
  let point := n * interval.denominator
  if interval.closed then interval.value ≤ point + interval.below && point ≤ interval.value + interval.above
  else interval.value < point + interval.below && point < interval.value + interval.above

/-- The whole number of units in the interval that is nearest to the number, the larger one if two are equally near. -/
def nearest? (interval : Interval) : Option Nat :=
  let low := interval.value / interval.denominator
  let rest := interval.value % interval.denominator
  match interval.contains low, interval.contains (low + 1) with
  | true, true => some (if interval.denominator ≤ 2 * rest then low + 1 else low)
  | true, false => some low
  | false, true => some (low + 1)
  | false, false => none

/-- The exponent of the first digit of the number: a number below one has as many zeros in front as it takes powers of
ten to reach one. -/
def leadingExponent (interval : Interval) : Int :=
  let whole := interval.value / interval.denominator
  if 0 < whole then (Nat.toDigits 10 whole).length - 1
  else
    match (List.range 400).find? (fun n => interval.denominator ≤ interval.value * Nat.pow 10 n) with
    | some n => -n
    | none => 0

/-- The shortest decimal in the interval; at most seventeen digits are needed. -/
def shortest (interval : Interval) : Decimal :=
  let first := interval.leadingExponent
  let candidate (n : Nat) : Option Decimal :=
    (fun digits => ⟨digits, first - n⟩) <$> (interval.scaled (first - n)).nearest?
  ((List.range 20).findSome? candidate).getD ⟨0, 0⟩

/-- The chosen number of units belongs to the interval. -/
theorem contains_of_nearest? {interval : Interval} {n : Nat} (h : interval.nearest? = some n) :
    interval.contains n = true := by
  simp only [nearest?] at h
  split at h <;> rename_i hl hh
  · cases h
    split
    · exact hh
    · exact hl
  · cases h
    exact hl
  · cases h
    exact hh
  · cases h

end Interval

/-- A decimal without the zeros its digits end in; `fuel` bounds the number of digits. -/
def stripZeros : Nat → Decimal → Decimal
  | 0, decimal => decimal
  | fuel + 1, ⟨digits, exponent⟩ =>
    if digits ≠ 0 ∧ digits % 10 = 0 then stripZeros fuel ⟨digits / 10, exponent + 1⟩ else ⟨digits, exponent⟩

/-- The shortest decimal that reads back as a positive binary number. -/
def shortest (significand : Nat) (exponent : Int) (narrow : Bool) : Decimal :=
  stripZeros 20 (Interval.ofBinary significand exponent narrow).shortest

end Decimal

end PrivateLog
