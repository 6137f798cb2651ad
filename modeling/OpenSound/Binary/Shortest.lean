import OpenSound.Binary.Format
/-!
# Shortest decimals

The decimal that a stored number is written with: of those that read back as the same number, the one
with the fewest digits; of several with as few, the nearest; of two as near, the even one.

A decimal reads back when it lies in the interval around the number whose ends are halfway to its
neighbours, and an end itself reads back when the significand is even. If a grid of powers of ten has a
point in that interval, one of the number's two neighbours on the grid is such a point, so testing the
two on ever finer grids finds the shortest.
-/

namespace OpenSound.Binary

/-- The number `digits * 10 ^ exponent`. -/
structure Decimal where
  digits : Nat
  exponent : Int
  deriving DecidableEq, Repr

/-- The exponent of the largest power of ten that does not exceed a positive fraction. -/
def floorLog10 (numerator denominator : Nat) : Int :=
  if denominator ≤ numerator then
    ((Nat.toDigits 10 (numerator / denominator)).length - 1 : Nat)
  else -((Nat.toDigits 10 ((denominator - 1) / numerator)).length : Nat)

/-- The numbers that round to a magnitude: from `low` to `high`, over a common denominator. -/
structure Interval where
  low : Nat
  value : Nat
  high : Nat
  denominator : Nat
  /-- Whether the ends belong to it. -/
  closed : Bool

/-- The interval around a positive magnitude. Below a power of two the neighbour is half as far as
above. -/
def Format.interval (f : Format) (m : Magnitude) : Interval :=
  let below :=
    if m.significand = Nat.pow 2 f.fractionBits ∧ f.leastExponent < m.exponent then 1 else 2
  let scale := Nat.pow 2 m.exponent.toNat
  { low := (4 * m.significand - below) * scale
    value := 4 * m.significand * scale
    high := (4 * m.significand + 2) * scale
    denominator := 4 * m.denominator
    closed := m.significand % 2 == 0 }

namespace Interval

/-- Whether `digits * unit`, a number over the interval's denominator, lies inside. -/
def contains (i : Interval) (x : Nat) : Bool :=
  if i.closed then i.low ≤ x && x ≤ i.high else i.low < x && x < i.high

def scale (i : Interval) (by_ : Nat) : Interval :=
  { i with low := i.low * by_, value := i.value * by_, high := i.high * by_ }

/-- The multiple of `10 ^ exponent` nearest to the value, if any lies inside. -/
def pointOnGrid (i : Interval) (exponent : Int) : Option Decimal :=
  let i := i.scale (Nat.pow 10 (-exponent).toNat)
  let unit := i.denominator * Nat.pow 10 exponent.toNat
  let down := i.value / unit
  let up := down + 1
  let twice := 2 * (i.value % unit)
  let choice :=
    match i.contains (down * unit), i.contains (up * unit) with
    | true, true =>
      if twice < unit then some down
      else if unit < twice then some up
      else some (down + down % 2)
    | true, false => some down
    | false, true => some up
    | false, false => none
  choice.map fun digits => ⟨digits, exponent⟩

end Interval

/-- Moves zeros at the end of the digits into the exponent. At most `fuel` of them. -/
def Decimal.strip : (fuel : Nat) → Decimal → Decimal
  | 0, d => d
  | fuel + 1, d =>
    if d.digits ≠ 0 ∧ d.digits % 10 = 0 then strip fuel ⟨d.digits / 10, d.exponent + 1⟩ else d

/-- How many digits always suffice: seventeen for the widest format here. -/
def maxDigits : Nat := 17

def Format.shortest (f : Format) (m : Magnitude) : Decimal :=
  if m.significand = 0 then ⟨0, 0⟩
  else
    let i := f.interval m
    let leading := floorLog10 i.value i.denominator
    let found := (List.range maxDigits).findSome? fun (more : Nat) => i.pointOnGrid (leading - more)
    (found.getD ⟨m.numerator / m.denominator, 0⟩).strip maxDigits

end OpenSound.Binary
