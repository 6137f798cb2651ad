/-!
# Binary floating-point formats

Numbers in binary floating point, described exactly: a magnitude is a natural significand times a
power of two, an operation computes its exact rational result and rounds it once, to nearest with
ties to the even significand. Bit patterns are met only where a number is stored, so an argument that
is merely carried along keeps every bit, the payload of a NaN included.
-/

namespace OpenSound.Binary

/-- A format is fixed by how many bits its significands have (the leading one included) and how many
its exponents have. -/
structure Format where
  precision : Nat
  exponentBits : Nat
  deriving DecidableEq, Repr

def Format.single : Format := ⟨24, 8⟩

def Format.double : Format := ⟨53, 11⟩

/-- The number `significand * 2 ^ exponent`. -/
structure Magnitude where
  significand : Nat
  exponent : Int
  deriving DecidableEq, Repr

namespace Magnitude

/-- A magnitude is the fraction `numerator / denominator`. -/
def numerator (m : Magnitude) : Nat := m.significand * Nat.pow 2 m.exponent.toNat

def denominator (m : Magnitude) : Nat := Nat.pow 2 (-m.exponent).toNat

def floor (m : Magnitude) : Nat := m.numerator / m.denominator

theorem denominator_pos (m : Magnitude) : 0 < m.denominator := Nat.two_pow_pos _

end Magnitude

/-- The natural number nearest to a fraction; of two nearest ones, the even one. -/
def roundHalfEven (numerator denominator : Nat) : Nat :=
  let quotient := numerator / denominator
  let twice := 2 * (numerator % denominator)
  if twice < denominator then quotient
  else if denominator < twice then quotient + 1
  else quotient + quotient % 2

/-- The exponent of the largest power of two that does not exceed a positive fraction. -/
def floorLog2 (numerator denominator : Nat) : Int :=
  if denominator ≤ numerator then (numerator / denominator).log2
  else -(((denominator - 1) / numerator).log2 + 1 : Nat)

namespace Format

/-- The exponent of the smallest positive magnitude. -/
def leastExponent (f : Format) : Int := 3 - (Nat.pow 2 (f.exponentBits - 1) + f.precision : Nat)

/-- The magnitude nearest to a fraction, were exponents unbounded above. -/
def round (f : Format) (numerator denominator : Nat) : Magnitude :=
  if numerator = 0 then ⟨0, f.leastExponent⟩
  else
    let exponent := max f.leastExponent (floorLog2 numerator denominator - (f.precision - 1 : Nat))
    ⟨roundHalfEven (numerator * Nat.pow 2 (-exponent).toNat) (denominator * Nat.pow 2 exponent.toNat), exponent⟩

def ofNat (f : Format) (n : Nat) : Magnitude := f.round n 1

def mul (f : Format) (x y : Magnitude) : Magnitude :=
  f.round (x.numerator * y.numerator) (x.denominator * y.denominator)

def div (f : Format) (x y : Magnitude) : Magnitude :=
  f.round (x.numerator * y.denominator) (x.denominator * y.numerator)

def fractionBits (f : Format) : Nat := f.precision - 1

def infinity (f : Format) : Nat := (Nat.pow 2 f.exponentBits - 1) * Nat.pow 2 f.fractionBits

/-- The bit pattern of a rounded magnitude, without a sign; one too large becomes infinity. -/
def toBits (f : Format) (m : Magnitude) : Nat :=
  min f.infinity ((m.exponent - f.leastExponent).toNat * Nat.pow 2 f.fractionBits + m.significand)

/-- The magnitude that a bit pattern without a sign stands for, unless it is infinite or no number. -/
def ofBits? (f : Format) (bits : Nat) : Option Magnitude :=
  let field := bits / Nat.pow 2 f.fractionBits
  let fraction := bits % Nat.pow 2 f.fractionBits
  if f.infinity ≤ bits then none
  else if field = 0 then some ⟨fraction, f.leastExponent⟩
  else some ⟨fraction + Nat.pow 2 f.fractionBits, f.leastExponent + (field - 1 : Nat)⟩

/-- Whether a bit pattern without a sign stands for no number. -/
def isNaN (f : Format) (bits : Nat) : Bool := f.infinity < bits

end Format

/-! ### Stored numbers -/

structure Binary32 where
  bits : UInt32
  deriving DecidableEq, Repr

structure Binary64 where
  bits : UInt64
  deriving DecidableEq, Repr

namespace Binary32

/-- What the sign bit counts for. -/
def signWeight : Nat := 0x80000000

def isNegative (x : Binary32) : Bool := signWeight ≤ x.bits.toNat

def unsigned (x : Binary32) : Nat := x.bits.toNat % signWeight

def isNaN (x : Binary32) : Bool := Format.single.isNaN x.unsigned

def isFinite (x : Binary32) : Bool := x.unsigned < Format.single.infinity

/-- Equality of the numbers stored: no number that is not one equals anything, and zero equals zero
whatever its sign. -/
def sameNumber (x y : Binary32) : Bool :=
  !x.isNaN && !y.isNaN && (x.bits == y.bits || x.unsigned == 0 && y.unsigned == 0)

def ofMagnitude (negative : Bool) (m : Magnitude) : Binary32 :=
  ⟨UInt32.ofNat ((if negative then signWeight else 0) + Format.single.toBits m)⟩

end Binary32

namespace Binary64

def signWeight : Nat := 0x8000000000000000

def isNegative (x : Binary64) : Bool := signWeight ≤ x.bits.toNat

def unsigned (x : Binary64) : Nat := x.bits.toNat % signWeight

def isNaN (x : Binary64) : Bool := Format.double.isNaN x.unsigned

def isFinite (x : Binary64) : Bool := x.unsigned < Format.double.infinity

def sameNumber (x y : Binary64) : Bool :=
  !x.isNaN && !y.isNaN && (x.bits == y.bits || x.unsigned == 0 && y.unsigned == 0)

def ofMagnitude (negative : Bool) (m : Magnitude) : Binary64 :=
  ⟨UInt64.ofNat ((if negative then signWeight else 0) + Format.double.toBits m)⟩

end Binary64

end OpenSound.Binary
