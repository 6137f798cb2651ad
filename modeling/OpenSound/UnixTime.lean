import OpenSound.Binary.Format
import OpenSound.Error
/-!
# Time tags and Unix time

Unix time counts seconds and nanoseconds from the start of 1970. The parts of a second are converted
between nanoseconds and units of `2 ^ -32` in 64-bit floating point, one rounded operation after the
other, and cut to a whole number at the end.
-/

namespace OpenSound

abbrev nanosPerSecond : Nat := 1000000000

/-- A time relative to the start of 1970: whole seconds, which may be negative, and nanoseconds
after them. -/
structure UnixTime where
  seconds : Int
  nanos : Nat
  nanos_lt : nanos < nanosPerSecond
  deriving DecidableEq, Repr

namespace UnixTime

/-- The seconds from the start of 1900 to the start of 1970. -/
def epoch : Nat := 2208988800

/-- The time some seconds and nanoseconds after the start of 1970, where negative seconds lie before
it; full seconds of nanoseconds are carried. -/
def after (seconds : Int) (nanos : Nat) : UnixTime :=
  ⟨seconds + (nanos / nanosPerSecond : Nat), nanos % nanosPerSecond, Nat.mod_lt _ (by decide)⟩

def toNanos (t : UnixTime) : Int := t.seconds * nanosPerSecond + t.nanos

theorem after_of_lt {nanos : Nat} (seconds : Int) (h : nanos < nanosPerSecond) :
    after seconds nanos = ⟨seconds, nanos, h⟩ := by
  simp [after, Nat.div_eq_of_lt h, Nat.mod_eq_of_lt h]

/-- The later of a time and the start of 1970, as seconds and nanoseconds. -/
def clamped (t : UnixTime) : Nat × Nat :=
  if t.seconds < 0 then (0, 0) else (t.seconds.toNat, t.nanos)

end UnixTime

namespace TimeTag

open Binary

/-- Units of `2 ^ -32` seconds in some nanoseconds. -/
def fractionOfNanos (nanos : Nat) : Nat :=
  let f := Format.double
  (f.mul (f.div (f.ofNat nanos) (f.ofNat nanosPerSecond)) (f.ofNat UInt32.size)).floor

/-- Nanoseconds in some units of `2 ^ -32` seconds. -/
def nanosOfFraction (fraction : Nat) : Nat :=
  let f := Format.double
  (f.mul (f.div (f.ofNat fraction) (f.ofNat UInt32.size)) (f.ofNat nanosPerSecond)).floor

/-- The tag of a time. Times before 1970 count as its start, and the seconds wrap around at the end
of an era. -/
def ofUnixTime (t : UnixTime) : TimeTag :=
  let (seconds, nanos) := t.clamped
  ⟨UInt32.ofNat (seconds + UnixTime.epoch),
    UInt32.ofNat (min (UInt32.size - 1) (fractionOfNanos nanos))⟩

/-- The time of a tag, unless that is before 1970. -/
def toUnixTime (tag : TimeTag) : Except EncodeFault UnixTime :=
  if tag.seconds.toNat < UnixTime.epoch then .error (.predatesUnixEpoch tag)
  else .ok (UnixTime.after (tag.seconds.toNat - UnixTime.epoch)
    (nanosOfFraction tag.fraction.toNat))

end TimeTag

end OpenSound
