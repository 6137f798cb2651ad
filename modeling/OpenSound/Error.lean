import OpenSound.Text.Utf8
import OpenSound.TimeTag
/-!
# What can go wrong

Every failure of reading, writing and registering is a cause with its own data; the wording is one
function per family of causes.
-/

namespace OpenSound

open Text (quoted quotedChar)

/-! ### Addresses and patterns -/

/-- Why a string is no pattern, apart from a missing slash. -/
inductive PatternFault where
  | unexpected (c : Char)
  | unterminatedClass
  | unexpectedInClass (c : Char)
  | emptyClass
  | reversedRange (low high : Char)
  | unterminatedAlternation
  | unexpectedInAlternation (c : Char)
  deriving DecidableEq, Repr

/-- Why a string is no address, or no pattern. -/
inductive AddressFault where
  | missingSlash (text : String)
  /-- The reserved character stands `offset` bytes after the start of the text. -/
  | reserved (c : Char) (offset : Nat) (text : String)
  | pattern (fault : PatternFault) (text : String)
  /-- The regular expression of a pattern was refused for this reason. -/
  | expression (reason : String)
  deriving DecidableEq, Repr

def PatternFault.message : PatternFault → String
  | .unexpected c => "unexpected " ++ quotedChar c
  | .unterminatedClass => "unterminated '['"
  | .unexpectedInClass c => "unexpected " ++ quotedChar c ++ " in '[...]'"
  | .emptyClass => "empty '[...]'"
  | .reversedRange low high => "reversed range " ++ low.toString ++ "-" ++ high.toString
  | .unterminatedAlternation => "unterminated '\x7b'"
  | .unexpectedInAlternation c => "unexpected " ++ quotedChar c ++ " in '\x7b...\x7d'"

def AddressFault.message : AddressFault → String
  | .missingSlash text => "address must start with '/': " ++ quoted text
  | .reserved c offset text =>
    "reserved character " ++ quotedChar c ++ " at offset " ++ toString offset ++ " in " ++
      quoted text
  | .pattern fault text => fault.message ++ " in pattern " ++ quoted text
  | .expression reason => reason

/-! ### Packets -/

/-- The parts of a packet that can be cut short. -/
inductive Field where
  | int | float | int64 | double | timeTag | char | color | midi
  | blobLength | blob | stringPadding
  | bundleHeader | elementSize | element
  deriving DecidableEq, Repr

def Field.name : Field → String
  | .int => "int"
  | .float => "float"
  | .int64 => "int64"
  | .double => "double"
  | .timeTag => "time tag"
  | .char => "char"
  | .color => "color"
  | .midi => "midi"
  | .blobLength => "blob length"
  | .blob => "blob"
  | .stringPadding => "string padding"
  | .bundleHeader => "bundle header"
  | .elementSize => "bundle element size"
  | .element => "bundle element"

/-- Why bytes are no packet. -/
inductive PacketFault where
  | empty
  /-- A field needs more bytes than are left. -/
  | short (field : Field) (needed found : Nat)
  | unterminatedString
  | stringPadding
  | notUtf8 (fault : Utf8.Fault)
  | blobPadding
  | charCode (code : UInt32)
  | messageSize (size : Nat)
  | address (fault : AddressFault)
  | missingComma (typetags : String)
  | trailing (count : Nat) (typetags : String)
  | missingMarker
  | elementSize (size : Nat)
  | emptyElement
  deriving DecidableEq, Repr

/-- Why a value has no wire form. -/
inductive EncodeFault where
  | containsNul (text : String)
  | blobTooLarge (size : Nat)
  | elementTooLarge (size : Nat)
  | predatesUnixEpoch (tag : TimeTag)
  deriving DecidableEq, Repr

inductive Error where
  | invalidAddress (fault : AddressFault)
  | malformedPacket (fault : PacketFault)
  | invalidTypeTag (c : Char)
  | nilDispatcher
  | emptyDispatcher
  | encodeError (fault : EncodeFault)
  deriving DecidableEq, Repr

def EncodeFault.message : EncodeFault → String
  | .containsNul text => "string contains NUL: " ++ quoted text
  | .blobTooLarge size => "blob too large: " ++ toString size ++ " bytes"
  | .elementTooLarge size => "bundle element too large: " ++ toString size
  | .predatesUnixEpoch tag => "time tag " ++ tag.toText ++ " predates the Unix epoch"

def PacketFault.message : PacketFault → String
  | .empty => "empty packet"
  | .short field needed found =>
    field.name ++ ": need " ++ toString needed ++ " bytes, have " ++ toString found
  | .unterminatedString => "unterminated string"
  | .stringPadding => "non-zero string padding"
  | .notUtf8 fault => "string is not utf-8: " ++ fault.message
  | .blobPadding => "non-zero blob padding"
  | .charCode code => "invalid char code 0x" ++ Text.paddedHex 8 code.toNat
  | .messageSize size => "message size " ++ toString size ++ " is not a multiple of 4"
  | .address fault => "invalid address: " ++ fault.message
  | .missingComma typetags => "typetag string " ++ quoted typetags ++ " does not start with ','"
  | .trailing count typetags =>
    toString count ++ " trailing bytes after arguments " ++ quoted typetags
  | .missingMarker => "missing #bundle marker"
  | .elementSize size => "bundle element size " ++ toString size ++ " is not a multiple of 4"
  | .emptyElement => "empty bundle element"

def Error.message : Error → String
  | .invalidAddress fault => "invalid address: " ++ fault.message
  | .malformedPacket fault => "malformed packet: " ++ fault.message
  | .invalidTypeTag c => "invalid type tag: " ++ quotedChar c
  | .nilDispatcher => "nil dispatcher"
  | .emptyDispatcher => "empty dispatcher"
  | .encodeError fault => "encode error: " ++ fault.message

end OpenSound
