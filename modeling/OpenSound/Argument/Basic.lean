import OpenSound.Bytes
import OpenSound.Binary.Format
import OpenSound.TimeTag
/-!
# Arguments

The fourteen kinds of value that a message can carry, and the fifteen tag characters that announce
them: a truth value has no payload, so each of the two has a tag of its own.
-/

namespace OpenSound

open Binary (Binary32 Binary64)

structure Color where
  red : UInt8
  green : UInt8
  blue : UInt8
  alpha : UInt8
  deriving DecidableEq, Repr

/-- A MIDI event and the port it belongs to. -/
structure MidiMessage where
  port : UInt8
  status : UInt8
  data1 : UInt8
  data2 : UInt8
  deriving DecidableEq, Repr

/-- A value carried by a message. Equality tells apart any two that differ on the wire. -/
inductive Argument where
  | int (value : Int32)
  | float (value : Binary32)
  | string (text : String)
  | blob (bytes : Bytes)
  | long (value : Int64)
  | double (value : Binary64)
  | time (tag : TimeTag)
  | symbol (text : String)
  | char (value : Char)
  | color (value : Color)
  | midi (value : MidiMessage)
  | bool (value : Bool)
  | nil
  | impulse
  deriving DecidableEq, Repr

/-- What a tag character announces. -/
inductive TypeTag where
  | int | float | string | blob | long | double | time | symbol | char | color | midi
  | true | false | nil | impulse
  deriving DecidableEq, Repr

namespace TypeTag

def toChar : TypeTag → Char
  | int => 'i'
  | float => 'f'
  | string => 's'
  | blob => 'b'
  | long => 'h'
  | double => 'd'
  | time => 't'
  | symbol => 'S'
  | char => 'c'
  | color => 'r'
  | midi => 'm'
  | true => 'T'
  | false => 'F'
  | nil => 'N'
  | impulse => 'I'

/-- Every tag once. -/
def all : List TypeTag :=
  [int, float, string, blob, long, double, time, symbol, char, color, midi, true, false, nil,
    impulse]

def ofChar? (c : Char) : Option TypeTag := all.find? (·.toChar == c)

@[simp] theorem ofChar?_toChar (t : TypeTag) : ofChar? t.toChar = some t := by
  cases t <;> rfl

theorem toChar_of_ofChar? {c : Char} {t : TypeTag} (h : ofChar? c = some t) : t.toChar = c := by
  simpa using List.find?_some h

theorem ofChar?_eq_some_iff {c : Char} {t : TypeTag} : ofChar? c = some t ↔ t.toChar = c :=
  ⟨toChar_of_ofChar?, fun h => h ▸ ofChar?_toChar t⟩

end TypeTag

namespace Argument

def typeTag : Argument → TypeTag
  | int _ => .int
  | float _ => .float
  | string _ => .string
  | blob _ => .blob
  | long _ => .long
  | double _ => .double
  | time _ => .time
  | symbol _ => .symbol
  | char _ => .char
  | color _ => .color
  | midi _ => .midi
  | bool Bool.true => .true
  | bool Bool.false => .false
  | nil => .nil
  | impulse => .impulse

def tag (a : Argument) : Char := a.typeTag.toChar

/-! ### Values by kind -/

def asInt? : Argument → Option Int32
  | int value => some value
  | _ => none

def asFloat? : Argument → Option Binary32
  | float value => some value
  | _ => none

def asText? : Argument → Option String
  | string text | symbol text => some text
  | _ => none

def asBlob? : Argument → Option Bytes
  | blob bytes => some bytes
  | _ => none

def asBool? : Argument → Option Bool
  | bool value => some value
  | _ => none

/-! ### Equality of values -/

/-- Equality of the values carried: numbers in floating point are compared as numbers, all else as it
stands. -/
def sameValue : Argument → Argument → Bool
  | float x, float y => x.sameNumber y
  | double x, double y => x.sameNumber y
  | a, b => a == b

end Argument

end OpenSound
