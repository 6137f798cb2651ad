import OpenSound.Bytes
import OpenSound.Text.Quoted
/-!
# Time tags

A time tag counts seconds since the start of 1900 and fractions of a second in units of `2 ^ -32`. On
the wire it is one double word, seconds in the high half. The tag one unit after the start of the era
is special: it means "at once".
-/

namespace OpenSound

/-- A point in time, or the request to act at once. -/
structure TimeTag where
  seconds : UInt32
  fraction : UInt32
  deriving DecidableEq, Repr

namespace TimeTag

/-- The tag that means "at once". -/
def immediate : TimeTag := ⟨0, 1⟩

instance : Inhabited TimeTag := ⟨immediate⟩

def isImmediate (t : TimeTag) : Bool := t == immediate

/-- The wire value: seconds in the high half, fraction in the low half. -/
def toBits (t : TimeTag) : UInt64 :=
  UInt64.ofNat (t.seconds.toNat * 0x100000000 + t.fraction.toNat)

def ofBits (bits : UInt64) : TimeTag :=
  ⟨UInt32.ofNat (bits.toNat / 0x100000000), UInt32.ofNat (bits.toNat % 0x100000000)⟩

theorem toNat_toBits (t : TimeTag) :
    t.toBits.toNat = t.seconds.toNat * 0x100000000 + t.fraction.toNat := by
  have hs := t.seconds.toNat_lt
  have hf := t.fraction.toNat_lt
  simp only [toBits, UInt64.toNat_ofNat']
  omega

@[simp] theorem ofBits_toBits (t : TimeTag) : ofBits t.toBits = t := by
  have hf := t.fraction.toNat_lt
  rw [ofBits, toNat_toBits]
  have hs : (t.seconds.toNat * 0x100000000 + t.fraction.toNat) / 0x100000000 = t.seconds.toNat := by omega
  have hr : (t.seconds.toNat * 0x100000000 + t.fraction.toNat) % 0x100000000 = t.fraction.toNat := by omega
  rw [hs, hr]
  simp

@[simp] theorem toBits_ofBits (bits : UInt64) : (ofBits bits).toBits = bits := by
  have hb := bits.toNat_lt
  apply UInt64.toNat_inj.1
  rw [toNat_toBits]
  simp only [ofBits, UInt32.toNat_ofNat']
  omega

/-- Tags are ordered by their seconds, and within a second by their fraction. -/
def compare (s t : TimeTag) : Ordering :=
  (Ord.compare s.seconds t.seconds).then (Ord.compare s.fraction t.fraction)

instance : Ord TimeTag := ⟨compare⟩

def encode (t : TimeTag) : Bytes := Bytes.ofWord64 t.toBits

def decode (bytes : Bytes) : TimeTag := ofBits bytes.word64

@[simp] theorem length_encode (t : TimeTag) : t.encode.length = 8 := Bytes.length_ofWord64 _

@[simp] theorem decode_encode (t : TimeTag) : decode t.encode = t := by
  simp [decode, encode]

/-- Seconds in decimal, a point, and the fraction as eight hexadecimal digits. -/
def toText (t : TimeTag) : String :=
  toString t.seconds.toNat ++ "." ++ Text.paddedHex 8 t.fraction.toNat

end TimeTag

end OpenSound
