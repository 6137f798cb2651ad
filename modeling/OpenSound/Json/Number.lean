import OpenSound.Json.Basic
import OpenSound.Binary.Shortest
/-!
# Numbers in JSON

Reading: a numeral without point and exponent is an integer as long as it fits 64 bits, with a sign or
without; minus zero and everything else is a number in floating point. Its digits are taken into a
64-bit significand as long as they fit, the rest only counts for the exponent, and the significand is
then scaled by one rounded multiplication or by rounded divisions. So a long numeral need not yield the
nearest number.

Writing: a stored number is written with its shortest decimal, positionally unless the point would stand
too far from the digits, and always with a point or an exponent. Infinities and what is no number have
no numeral and are written as null.
-/

namespace OpenSound

open Binary

/-- What a numeral stands for. -/
inductive Number where
  | natural (n : Nat)
  /-- The integer `-n`. -/
  | negated (n : Nat)
  | float (negative : Bool) (magnitude : Magnitude)
  deriving DecidableEq, Repr

namespace Numeral

/-! ### Reading -/

def digitValue (c : Char) : Nat := c.toNat - '0'.toNat

def digitsValue (digits : List Char) : Nat :=
  digits.foldl (fun sum c => sum * 10 + digitValue c) 0

/-- Takes digits into a significand as long as it stays below `2 ^ 64`, and gives back those left. -/
def accumulate (significand : Nat) : List Char → Nat × List Char
  | [] => (significand, [])
  | c :: cs =>
    let next := significand * 10 + digitValue c
    if next < UInt64.size then accumulate next cs else (significand, c :: cs)

/-- Divides by a power of ten, in steps of at most 308 powers, which is as far as a stored power
reaches. -/
def divideByPower (m : Magnitude) (power : Nat) : Magnitude :=
  if power ≤ 308 then Format.double.div m (Format.double.ofNat (Nat.pow 10 power))
  else if m.significand = 0 then m
  else divideByPower (Format.double.div m (Format.double.ofNat (Nat.pow 10 308))) (power - 308)
termination_by power

/-- Scales a significand by a power of ten, unless that exceeds all numbers. -/
def scale? (significand : Nat) (power : Int) : Option Magnitude :=
  let m := Format.double.ofNat significand
  if power < 0 then some (divideByPower m power.natAbs)
  else if power ≤ 308 then
    let product := Format.double.mul m (Format.double.ofNat (Nat.pow 10 power.toNat))
    if Format.double.toBits product < Format.double.infinity then some product else none
  else if significand = 0 then some m
  else none

def exponentBound : Nat := 0x80000000

def number? (n : Numeral) : Option Number :=
  let (significand, dropped) := accumulate 0 n.whole
  match n.fraction, n.exponent with
  | none, none =>
    if dropped ≠ [] then (scale? significand dropped.length).map (Number.float n.negative)
    else if !n.negative then some (.natural significand)
    else if significand ≠ 0 ∧ significand ≤ 0x8000000000000000 then some (.negated significand)
    else some (.float true (Format.double.ofNat significand))
  | fraction, exponent =>
    let digits := fraction.getD []
    let (significand, left) := accumulate significand digits
    let power : Int := dropped.length - (digits.length - left.length : Nat)
    match exponent with
    | none => (scale? significand power).map (Number.float n.negative)
    | some (down, digits) =>
      let shift := digitsValue digits
      if shift < exponentBound then
        let power := if down then power - shift else power + shift
        (scale? significand power).map (Number.float n.negative)
      else if significand ≠ 0 ∧ !down then none
      else some (.float n.negative (Format.double.ofNat 0))

end Numeral

namespace Number

def int? : Number → Option Int
  | natural n => some n
  | negated n => some (-n)
  | float _ _ => none

def toBinary64 : Number → Binary64
  | natural n => .ofMagnitude false (Format.double.ofNat n)
  | negated n => .ofMagnitude true (Format.double.ofNat n)
  | float negative m => .ofMagnitude negative m

/-- The nearest stored number of 32 bits; one out of range becomes infinite. -/
def toBinary32 : Number → Binary32
  | natural n => .ofMagnitude false (Format.single.ofNat n)
  | negated n => .ofMagnitude true (Format.single.ofNat n)
  | float negative m => .ofMagnitude negative (Format.single.round m.numerator m.denominator)

end Number

/-! ### Writing -/

/-- How far the point may stand from the digits in positional form: the place of the point, counted
from the first digit, lies above `lowest` and not above `highest`. -/
structure Layout where
  lowest : Int
  highest : Int

/-- Numbers of 32 bits are written positionally from a millionth to below ten million million. -/
def Layout.single : Layout := ⟨-6, 13⟩

/-- Numbers of 64 bits are written positionally from a hundred-thousandth to below ten to the
sixteenth. -/
def Layout.double : Layout := ⟨-5, 16⟩

def Layout.numeral (layout : Layout) (negative : Bool) (d : Decimal) : Numeral :=
  let digits := Nat.toDigits 10 d.digits
  let point : Int := digits.length + d.exponent
  if layout.lowest < point ∧ point ≤ layout.highest then
    if 0 ≤ d.exponent then
      ⟨negative, digits ++ List.replicate d.exponent.toNat '0', some ['0'], none⟩
    else if 0 < point then
      ⟨negative, digits.take point.toNat, some (digits.drop point.toNat), none⟩
    else ⟨negative, ['0'], some (List.replicate (-point).toNat '0' ++ digits), none⟩
  else
    let exponent := some (decide (point < 1), Nat.toDigits 10 (point - 1).natAbs)
    let fraction := if digits.tail = [] then none else some digits.tail
    ⟨negative, digits.take 1, fraction, exponent⟩

namespace Json

def float (x : Binary32) : Json :=
  match Format.single.ofBits? x.unsigned with
  | none => .null
  | some m => .number (Layout.single.numeral x.isNegative (Format.single.shortest m))

def double (x : Binary64) : Json :=
  match Format.double.ofBits? x.unsigned with
  | none => .null
  | some m => .number (Layout.double.numeral x.isNegative (Format.double.shortest m))

end Json

end OpenSound
