import OpenSound.Argument.Basic
import OpenSound.Error
/-!
# Arguments on the wire

The payload of an argument: numbers have a fixed width and are big-endian, text ends with a zero byte,
a blob begins with its length, and both are padded to a multiple of four. The tag is not part of the
payload, so reading takes the tag from elsewhere and the payload from the front of the unread bytes.

A reader that fails leaves the unread bytes alone, with one exception: the four bytes of a blob's
length, or of a character's code, are consumed before what they say is checked.
-/

namespace OpenSound

/-! ### Text and blobs -/

/-- Writes text, its terminator and padding; the terminator must be its only zero byte. -/
def encodeText (text : String) : Except EncodeFault Bytes :=
  if '\x00' ∈ text.toList then .error (.containsNul text)
  else .ok (Bytes.padded (Utf8.encode text ++ [0]))

/-- Reads text up to its terminator, and the padding after it. -/
def decodeText (bytes : Bytes) : Except PacketFault (String × Bytes) :=
  match bytes.findIdx? (· == 0) with
  | none => .error .unterminatedString
  | some length =>
    let needed := length + 1 + Bytes.padLength (length + 1)
    match bytes.split? needed with
    | none => .error (.short .stringPadding needed bytes.length)
    | some (field, rest) =>
      if (field.drop (length + 1)).any (· != 0) then .error .stringPadding
      else match Utf8.decode (field.take length) with
        | .error fault => .error (.notUtf8 fault)
        | .ok text => .ok (text, rest)

/-- Writes the length of a blob, its bytes and padding. -/
def encodeBlob (blob : Bytes) : Except EncodeFault Bytes :=
  if blob.length < UInt32.size then
    .ok (Bytes.ofWord32 (UInt32.ofNat blob.length) ++ blob.padded)
  else .error (.blobTooLarge blob.length)

/-- Reads the bytes of a blob of known length, and the padding after them. -/
def decodeBlobBody (length : Nat) (bytes : Bytes) : Except PacketFault (Bytes × Bytes) :=
  let needed := length + Bytes.padLength length
  match bytes.split? needed with
  | none => .error (.short .blob needed bytes.length)
  | some (field, rest) =>
    if (field.drop length).any (· != 0) then .error .blobPadding
    else .ok (field.take length, rest)

namespace Argument

/-! ### Writing -/

def encode : Argument → Except EncodeFault Bytes
  | int value => .ok (Bytes.ofWord32 value.toUInt32)
  | float value => .ok (Bytes.ofWord32 value.bits)
  | string text | symbol text => encodeText text
  | blob bytes => encodeBlob bytes
  | long value => .ok (Bytes.ofWord64 value.toUInt64)
  | double value => .ok (Bytes.ofWord64 value.bits)
  | time tag => .ok tag.encode
  | char value => .ok (Bytes.ofWord32 value.val)
  | color c => .ok [c.red, c.green, c.blue, c.alpha]
  | midi m => .ok [m.port, m.status, m.data1, m.data2]
  | bool _ | nil | impulse => .ok []

/-! ### Reading -/

/-- Reads a payload of fixed width, once there are bytes enough. -/
def decodeFixed (field : Field) (width : Nat) (make : Bytes → Argument) (bytes : Bytes) :
    Except PacketFault Argument × Bytes :=
  match bytes.split? width with
  | some (payload, rest) => (.ok (make payload), rest)
  | none => (.error (.short field width bytes.length), bytes)

def decodeTextAs (make : String → Argument) (bytes : Bytes) :
    Except PacketFault Argument × Bytes :=
  match decodeText bytes with
  | .ok (text, rest) => (.ok (make text), rest)
  | .error fault => (.error fault, bytes)

def decodeBlob (bytes : Bytes) : Except PacketFault Argument × Bytes :=
  match bytes.split? 4 with
  | none => (.error (.short .blobLength 4 bytes.length), bytes)
  | some (length, body) =>
    match decodeBlobBody length.value body with
    | .ok (data, rest) => (.ok (.blob data), rest)
    | .error fault => (.error fault, body)

def decodeChar (bytes : Bytes) : Except PacketFault Argument × Bytes :=
  match bytes.split? 4 with
  | none => (.error (.short .char 4 bytes.length), bytes)
  | some (code, rest) =>
    if h : code.word32.isValidChar then (.ok (.char ⟨code.word32, h⟩), rest)
    else (.error (.charCode code.word32), rest)

def colorOfBytes : Bytes → Color
  | [red, green, blue, alpha] => ⟨red, green, blue, alpha⟩
  | _ => ⟨0, 0, 0, 0⟩

def midiOfBytes : Bytes → MidiMessage
  | [port, status, data1, data2] => ⟨port, status, data1, data2⟩
  | _ => ⟨0, 0, 0, 0⟩

/-- Reads the payload that a tag announces from the front of the unread bytes. The second component is
what is left unread, on success and on failure. -/
def decodeTagged : TypeTag → Bytes → Except PacketFault Argument × Bytes
  | .int => decodeFixed .int 4 fun b => .int b.word32.toInt32
  | .float => decodeFixed .float 4 fun b => .float ⟨b.word32⟩
  | .string => decodeTextAs .string
  | .blob => decodeBlob
  | .long => decodeFixed .int64 8 fun b => .long b.word64.toInt64
  | .double => decodeFixed .double 8 fun b => .double ⟨b.word64⟩
  | .time => decodeFixed .timeTag 8 fun b => .time (TimeTag.decode b)
  | .symbol => decodeTextAs .symbol
  | .char => decodeChar
  | .color => decodeFixed .color 4 fun b => .color (colorOfBytes b)
  | .midi => decodeFixed .midi 4 fun b => .midi (midiOfBytes b)
  | .true => fun bytes => (.ok (.bool Bool.true), bytes)
  | .false => fun bytes => (.ok (.bool Bool.false), bytes)
  | .nil => fun bytes => (.ok .nil, bytes)
  | .impulse => fun bytes => (.ok .impulse, bytes)

/-- Reads the payload that a tag character announces. The width of an unknown one is unknown too, so
nothing is consumed for it. -/
def decode (tag : Char) (bytes : Bytes) : Except Error Argument × Bytes :=
  match TypeTag.ofChar? tag with
  | none => (.error (.invalidTypeTag tag), bytes)
  | some t =>
    let (result, rest) := decodeTagged t bytes
    (result.mapError .malformedPacket, rest)

/-- Reads one argument per tag character, in order, as long as reading succeeds. -/
def decodeAll : List Char → Bytes → Except Error (List Argument × Bytes)
  | [], bytes => .ok ([], bytes)
  | tag :: tags, bytes =>
    match decode tag bytes with
    | (.error e, _) => .error e
    | (.ok a, rest) =>
      match decodeAll tags rest with
      | .error e => .error e
      | .ok (as, rest) => .ok (a :: as, rest)

end Argument

end OpenSound
