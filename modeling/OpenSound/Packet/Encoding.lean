import OpenSound.Packet.Basic
import OpenSound.Argument.Wire
/-!
# Writing packets

A message is its address, its type tags and its payloads. A bundle is the marker, its time tag and its
elements, each behind its size. The size of an element is known only once the element is written, so
the writer leaves four bytes free in front of each and fills them in on leaving it; the bundles that
it is inside of are kept on a stack. `Packet.layout` gives the same bytes by recursion, with no size
written before it is known.
-/

namespace OpenSound

/-- The eight bytes that every bundle begins with. -/
def bundleMarker : Bytes := [0x23, 0x62, 0x75, 0x6E, 0x64, 0x6C, 0x65, 0x00]

/-- The sixteen bytes in front of a bundle's elements. -/
def bundleHeader (timetag : TimeTag) : Bytes := bundleMarker ++ timetag.encode

@[simp] theorem length_bundleMarker : bundleMarker.length = 8 := rfl

@[simp] theorem length_bundleHeader (timetag : TimeTag) : (bundleHeader timetag).length = 16 := by
  simp [bundleHeader]

def Argument.encodeAll : List Argument → Except EncodeFault Bytes
  | [] => .ok []
  | a :: as => do
    let payload ← a.encode
    let payloads ← encodeAll as
    .ok (payload ++ payloads)

/-- The bytes of a message. Its address is written as it stands, whether or not it is valid. -/
def Message.encode (m : Message) : Except EncodeFault Bytes := do
  let address ← encodeText m.address
  let typetags ← encodeText m.typetags
  let payloads ← Argument.encodeAll m.arguments
  .ok (address ++ typetags ++ payloads)

namespace Packet

/-! ### One pass with sizes filled in -/

/-- A bundle that is being written: its elements still to come, and where its size belongs unless it
is the outermost one. -/
structure Level where
  elements : List Packet
  sizeAt : Option Nat

def overwrite (buffer : Array UInt8) (index : Nat) : Bytes → Array UInt8
  | [] => buffer
  | byte :: bytes => overwrite (buffer.setIfInBounds index byte) (index + 1) bytes

/-- Fills in the size of the element that ends with the buffer, in the four bytes left free at
`index` in front of it. -/
def fillSize (buffer : Array UInt8) (index : Nat) : Except EncodeFault (Array UInt8) :=
  let size := buffer.size - (index + 4)
  if size < UInt32.size then .ok (overwrite buffer index (Bytes.ofWord32 (UInt32.ofNat size)))
  else .error (.elementTooLarge size)

/-- The steps left for a writer inside some bundles. -/
def stepsLevels : List Level → Nat
  | [] => 0
  | level :: levels => stepsAll level.elements + 1 + stepsLevels levels

def unsized : Bytes := [0, 0, 0, 0]

/-- Writes what is left of the open bundles, the innermost first. -/
def encodeLevels (buffer : Array UInt8) : List Level → Except EncodeFault (Array UInt8)
  | [] => .ok buffer
  | ⟨[], none⟩ :: levels => encodeLevels buffer levels
  | ⟨[], some index⟩ :: levels =>
    match fillSize buffer index with
    | .error fault => .error fault
    | .ok buffer => encodeLevels buffer levels
  | ⟨message m :: rest, sizeAt⟩ :: levels =>
    match m.encode with
    | .error fault => .error fault
    | .ok bytes =>
      match fillSize (buffer ++ unsized ++ bytes) buffer.size with
      | .error fault => .error fault
      | .ok buffer => encodeLevels buffer (⟨rest, sizeAt⟩ :: levels)
  | ⟨bundle timetag elements :: rest, sizeAt⟩ :: levels =>
    encodeLevels (buffer ++ unsized ++ bundleHeader timetag)
      (⟨elements, some buffer.size⟩ :: ⟨rest, sizeAt⟩ :: levels)
termination_by levels => stepsLevels levels
decreasing_by all_goals simp only [stepsLevels, stepsAll, steps]; omega

def encode : Packet → Except Error Bytes
  | message m => m.encode.mapError .encodeError
  | bundle timetag elements =>
    match encodeLevels (bundleHeader timetag).toArray [⟨elements, none⟩] with
    | .ok buffer => .ok buffer.toList
    | .error fault => .error (.encodeError fault)

/-! ### The same by recursion -/

mutual

/-- The bytes of a packet, every element written before its size. -/
def layout : Packet → Except EncodeFault Bytes
  | message m => m.encode
  | bundle timetag elements => do
    let body ← layoutElements elements
    .ok (bundleHeader timetag ++ body)

def layoutElements : List Packet → Except EncodeFault Bytes
  | [] => .ok []
  | p :: ps => do
    let element ← layout p
    if element.length < UInt32.size then
      let elements ← layoutElements ps
      .ok (Bytes.ofWord32 (UInt32.ofNat element.length) ++ element ++ elements)
    else .error (.elementTooLarge element.length)

end

end Packet

end OpenSound
