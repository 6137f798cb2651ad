import OpenSound.Json.Typed
import OpenSound.Json.Printer
import OpenSound.Json.Reader
import OpenSound.Packet.Basic
import OpenSound.Connection.Config
/-!
# Packets and settings in JSON

How messages, bundles, packets and settings are written as JSON values, and read again. Writing always
succeeds; a number that is infinite or none at all is written as null, which no reader takes for a
number.
-/

namespace OpenSound

open Json (record)

/-! ### Writing -/

def TimeTag.toJson (t : TimeTag) : Json :=
  record [("seconds", .nat t.seconds.toNat), ("fraction", .nat t.fraction.toNat)]

def Color.toJson (c : Color) : Json :=
  record [("red", .nat c.red.toNat), ("green", .nat c.green.toNat), ("blue", .nat c.blue.toNat),
    ("alpha", .nat c.alpha.toNat)]

def MidiMessage.toJson (m : MidiMessage) : Json :=
  record [("port", .nat m.port.toNat), ("status", .nat m.status.toNat),
    ("data1", .nat m.data1.toNat), ("data2", .nat m.data2.toNat)]

def Argument.toJson : Argument → Json
  | int value => record [("Int", .int value.toInt)]
  | float value => record [("Float", .float value)]
  | string text => record [("String", .text text)]
  | blob bytes => record [("Blob", .array (bytes.map fun b => .nat b.toNat))]
  | long value => record [("Long", .int value.toInt)]
  | double value => record [("Double", .double value)]
  | time tag => record [("Time", tag.toJson)]
  | symbol text => record [("Symbol", .text text)]
  | char value => record [("Char", .text value.toString)]
  | color value => record [("Color", value.toJson)]
  | midi value => record [("Midi", value.toJson)]
  | bool value => record [("Bool", .bool value)]
  | nil => .text "Nil"
  | impulse => .text "Impulse"

def Message.toJson (m : Message) : Json :=
  record [("address", .text m.address), ("arguments", .array (m.arguments.map Argument.toJson))]

namespace Packet

mutual

def toJson : Packet → Json
  | message m => record [("Message", m.toJson)]
  | bundle timetag elements =>
    record [("Bundle",
      record [("timetag", timetag.toJson), ("packets", .array (toJsonAll elements))])]

def toJsonAll : List Packet → List Json
  | [] => []
  | p :: ps => toJson p :: toJsonAll ps

end

end Packet

def Bundle.toJson (b : Bundle) : Json :=
  record [("timetag", b.timetag.toJson), ("packets", .array (Packet.toJsonAll b.elements))]

def Config.toJson (c : Config) : Json := record [("max_packet_size", .nat c.maxPacketSize)]

/-! ### Reading -/

def TimeTag.ofJson? : (depth : Nat) → Json → Option TimeTag
  | _ + 1, j => do
    match ← j.fields? ["seconds", "fraction"] with
    | [some seconds, some fraction] => return ⟨← seconds.word32?, ← fraction.word32?⟩
    | _ => none
  | _, _ => none

def Color.ofJson? : (depth : Nat) → Json → Option Color
  | _ + 1, j => do
    match ← j.fields? ["red", "green", "blue", "alpha"] with
    | [some red, some green, some blue, some alpha] =>
      return ⟨← red.byte?, ← green.byte?, ← blue.byte?, ← alpha.byte?⟩
    | _ => none
  | _, _ => none

def MidiMessage.ofJson? : (depth : Nat) → Json → Option MidiMessage
  | _ + 1, j => do
    match ← j.fields? ["port", "status", "data1", "data2"] with
    | [some port, some status, some data1, some data2] =>
      return ⟨← port.byte?, ← status.byte?, ← data1.byte?, ← data2.byte?⟩
    | _ => none
  | _, _ => none

/-- The argument of a named kind that a value stands for. -/
def Argument.ofVariant? (depth : Nat) (name : String) (value : Json) : Option Argument :=
  if name = "Int" then
    (value.int? (-0x80000000) 0x80000000).map fun n => .int (Int32.ofInt n)
  else if name = "Float" then value.number?.map fun n => .float n.toBinary32
  else if name = "String" then value.text?.map .string
  else if name = "Blob" then (Json.items? (fun _ => Json.byte?) depth value).map .blob
  else if name = "Long" then
    (value.int? (-0x8000000000000000) 0x8000000000000000).map fun n => .long (Int64.ofInt n)
  else if name = "Double" then value.number?.map fun n => .double n.toBinary64
  else if name = "Time" then (TimeTag.ofJson? depth value).map .time
  else if name = "Symbol" then value.text?.map .symbol
  else if name = "Char" then value.char?.map .char
  else if name = "Color" then (Color.ofJson? depth value).map .color
  else if name = "Midi" then (MidiMessage.ofJson? depth value).map .midi
  else if name = "Bool" then value.bool?.map .bool
  else
    match value with
    | .null => if name = "Nil" then some .nil else if name = "Impulse" then some .impulse else none
    | _ => none

def Argument.ofJson? (depth : Nat) (j : Json) : Option Argument :=
  match j with
  | .string (some name) =>
    if name = "Nil" then some .nil else if name = "Impulse" then some .impulse else none
  | j =>
    match depth with
    | 0 => none
    | depth + 1 =>
      match j.variant? with
      | some (name, value) => ofVariant? depth name value
      | none => none

def Message.ofJson? : (depth : Nat) → Json → Option Message
  | depth + 1, j => do
    match ← j.fields? ["address", "arguments"] with
    | [some address, some arguments] =>
      return ⟨← address.text?, ← Json.items? Argument.ofJson? depth arguments⟩
    | _ => none
  | _, _ => none

mutual

def Packet.ofJson? : (depth : Nat) → Json → Option Packet
  | depth + 1, j => do
    let (name, value) ← j.variant?
    if name = "Message" then (Message.ofJson? depth value).map .message
    else if name = "Bundle" then (Bundle.ofJson? depth value).map Bundle.toPacket
    else none
  | _, _ => none

def Bundle.ofJson? : (depth : Nat) → Json → Option Bundle
  | depth + 2, j => do
    match ← j.fields? ["timetag", "packets"] with
    | [some timetag, some (.array packets)] =>
      return ⟨← TimeTag.ofJson? (depth + 1) timetag, ← packets.mapM (Packet.ofJson? depth)⟩
    | _ => none
  | _, _ => none

end

def Config.ofJson? : (depth : Nat) → Json → Option Config
  | _ + 1, j => do
    match ← j.fields? ["max_packet_size"] with
    | [none] => return Config.default
    | [some size] => return ⟨(← size.int? 0 UInt64.size).toNat⟩
    | _ => none
  | _, _ => none

/-! ### Texts -/

def Packet.toJsonText (p : Packet) : String := p.toJson.toText

/-- The value of some type that all of a text spells. -/
def readJsonText? {α : Type} (ofJson? : (depth : Nat) → Json → Option α) (s : String) : Option α :=
  (Json.parse? s).bind (ofJson? Json.maxDepth)

end OpenSound
